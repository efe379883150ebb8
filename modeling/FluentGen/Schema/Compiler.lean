import FluentGen.Schema.DescriptorSet
import FluentGen.Store.Basic
import FluentGen.Text.Character

/-!
The compiler of schema files. It is a program of its own, of which the generator knows how to call
it and how to take what it leaves: a descriptor set, a complaint, or nothing at all.
-/

namespace FluentGen.Schema

/-- How a call of the compiler ends. -/
inductive Compilation where
  /-- There is no such program. -/
  | missing
  /-- The program is there, but the system does not let it start. -/
  | refused
  /-- The program has run: its exit code, what it says about errors, and its output if there is
  any. -/
  | ended (code : Int) (complaint : List UInt8) (output : Option (List UInt8))
  deriving DecidableEq, Repr

/-- A compiler, and where it is called. -/
structure Compiler where
  /-- The file that declares the annotations. -/
  annotations : String
  /-- The folder for the output, which is there during a call only. -/
  folder : String
  /-- What a call with arguments does to the files, and how it ends. -/
  call : List String → Store → Compilation × Store

namespace Compiler

/-- A compiler that has not been installed. -/
def missing : Compiler where
  annotations := "data/proto_builder.proto"
  folder := "/tmp"
  call _ store := (.missing, store)

/-- The name of the program. -/
def program : String := "protoc"

/-- The name under which schema files import the annotations. -/
def annotationsImport : String := "proto_builder/proto_builder.proto"

variable (compiler : Compiler)

/-- Where the output is expected. -/
def output : Path :=
  Path.ofText (compiler.folder ++ "/descriptor_set.pb")

/-- The arguments of a call: all imports belong to the output, and they are looked for in the working
folder unless there are paths for them. -/
def arguments (importPaths files : List String) : List String :=
  let importPaths := if importPaths.isEmpty then ["."] else importPaths
  ["--include_imports", "--descriptor_set_out=" ++ compiler.output.text,
    "--proto_path=" ++ annotationsImport ++ "=" ++ compiler.annotations]
    ++ importPaths.map ("--proto_path=" ++ ·) ++ files

/-- The schema files that a call leaves. -/
def read : Compilation → Except Failure (List FileDecl)
  | .missing => .error .noCompiler
  | .refused => .error .unusableCompiler
  | .ended code complaint output =>
    if code ≠ 0 then .error (.compilerFailed (Text.trim (Text.ofUtf8Lossy complaint)))
    else
      match output with
      | none => .error .unusableCompiler
      | some bytes => DescriptorSet.read compiler.output.text bytes

end Compiler

end FluentGen.Schema
