import FluentGen.Schema.Pool

/-!
Loading schema files. A file whose name has been loaded already contributes nothing. After all
files are there, the type names of the fields are looked up.
-/

namespace FluentGen.Schema

/-- What surrounds a declaration: the file, the full name of the scope, and the messages around
it. -/
structure Surroundings where
  file : String
  scope : String
  path : List Nat := []
  enclosing : List String := []
  outermost : Option String := none

namespace Surroundings

/-- The innermost message around. -/
def container (s : Surroundings) : Option Address :=
  if s.path.isEmpty then none else some ⟨s.file, s.path⟩

/-- The enum of a declaration. -/
def enumType (s : Surroundings) (e : EnumDecl) : EnumType :=
  { name := e.name
    fullName := qualify s.scope e.name
    file := s.file
    container := s.container
    values := e.values }

/-- The surroundings inside of a message at a position. -/
def inside (s : Surroundings) (position : Nat) (name : String) : Surroundings :=
  let fullName := qualify s.scope name
  { s with
    scope := fullName
    path := s.path ++ [position]
    enclosing := s.enclosing ++ [name]
    outermost := some (s.outermost.getD fullName) }

end Surroundings

/-- The field of a declaration, whose type name is not looked up yet. -/
def FieldDecl.toField (container : Address) (scope : String) (f : FieldDecl) :
    Except Failure Field := do
  let annotations ← f.annotations
  return {
    name := f.name
    fullName := qualify scope f.name
    number := f.number
    kind := f.kind
    label := f.label
    container
    typeName := f.typeName
    target := .scalar
    default := f.default
    annotations }

mutual

/-- The message of a declaration, in front of the messages it contains. -/
def MessageDecl.toMessages (s : Surroundings) (position : Nat) :
    MessageDecl → Except Failure (List Message)
  | ⟨name, fields, nested, enums, isMapEntry, options⟩ => do
    let inner := s.inside position name
    let address : Address := ⟨inner.file, inner.path⟩
    let options ← options
    let nestedMessages ← toMessagesList inner 0 nested
    let fields ← fields.mapM (·.toField address inner.scope)
    return {
      address
      name
      fullName := inner.scope
      container := s.container
      enclosing := s.enclosing
      outermost := s.outermost.getD inner.scope
      fields
      enums := enums.map inner.enumType
      isMapEntry
      options } :: nestedMessages

/-- The messages of declarations from a position on. -/
def toMessagesList (s : Surroundings) (position : Nat) :
    List MessageDecl → Except Failure (List Message)
  | [] => .ok []
  | m :: rest => do
    let first ← m.toMessages s position
    return first ++ (← toMessagesList s (position + 1) rest)

end

/-- Whether a message is another one or stands inside of it. -/
def Message.isInside (m outer : Message) : Bool :=
  m.address.file == outer.address.file && outer.address.path.isPrefixOf m.address.path

namespace Pool

/-- The schema with one more file, whose fields are not looked up yet. -/
def declare (pool : Pool) (file : FileDecl) : Except Failure Pool := do
  let s : Surroundings := { file := file.name, scope := file.package }
  let messages ← toMessagesList s 0 file.messages
  let enums := file.enums.map s.enumType
  return {
    files := pool.files ++
      [{ name := file.name, package := file.package, dependencies := file.dependencies, enums }]
    messages := pool.messages ++ messages
    enums := pool.enums ++ enums ++ messages.flatMap (·.enums) }

/-- Declares files one after the other; a file of a name that is there already is skipped, which
is logged. -/
def declareAll (pool : Pool) : List FileDecl → List LogRecord × Except Failure Pool
  | [] => ([], .ok pool)
  | file :: rest =>
    if (pool.file? file.name).isSome then
      let (logs, result) := declareAll pool rest
      (⟨Log.debug, "Skipping duplicate file " ++ file.name⟩ :: logs, result)
    else
      match pool.declare file with
      | .error failure => ([], .error failure)
      | .ok pool => declareAll pool rest

/-- Looks up what a field refers to. -/
def resolveField (pool : Pool) (f : Field) : Except Failure Field :=
  match f.kind with
  | .message | .group =>
    match pool.messageNamed? f.typeName with
    | some m => .ok { f with target := .message m.address }
    | none => .error (.unknownMessageType f.typeName f.fullName)
  | .enum =>
    match pool.enumNamed? f.typeName with
    | some e => .ok { f with target := .enum e }
    | none => .error (.unknownEnumType f.typeName f.fullName)
  | _ => .ok f

/-- Looks up what the fields of a message refer to. -/
def resolveMessage (pool : Pool) (m : Message) : Except Failure Message := do
  return { m with fields := ← m.fields.mapM pool.resolveField }

/-- Messages in the order in which their fields are read, each behind those inside of it. Messages of
which the end has not been reached are waiting, the innermost one first. -/
def innerFirst (waiting : List Message) : List Message → List Message
  | [] => waiting
  | m :: rest =>
    waiting.takeWhile (!m.isInside ·) ++ innerFirst (m :: waiting.dropWhile (!m.isInside ·)) rest

/-- Looks up what all fields refer to. Of several failures the one that is met first in reading
counts. -/
def resolve (pool : Pool) : Except Failure Pool := do
  let _ ← (innerFirst [] pool.messages).mapM pool.resolveMessage
  return { pool with messages := ← pool.messages.mapM pool.resolveMessage }

/-- Loads schema files. -/
def load (files : List FileDecl) : List LogRecord × Except Failure Pool :=
  let (logs, declared) := declareAll {} files
  (logs, declared >>= resolve)

end Pool

end FluentGen.Schema
