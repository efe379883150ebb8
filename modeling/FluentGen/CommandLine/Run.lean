import FluentGen.Assembly.Files
import FluentGen.CommandLine.Arguments
import FluentGen.Name.Reference
import FluentGen.Schema.Compiler
import FluentGen.Schema.Load
import FluentGen.Schema.Selection
import FluentGen.Settings.Basic
import FluentGen.TypeMap.Dependency
import FluentGen.TypeMap.Shared

/-!
A run of the generator: it reads the type map and the schema from files, of which the schema may
have to be compiled first, writes the builders of the selected messages, and logs what it does. It
writes nothing before all code has been generated.
-/

namespace FluentGen.CommandLine

open Schema (Compiler FileDecl Pool Selection)

/-- The version that is shown. -/
def versionText : String := "Version: 2025.10.0\n"

/-- What changes during a run. -/
structure Session where
  store : Store
  logs : List LogRecord := []
  deriving DecidableEq, Repr

/-- A step of a run. A failure keeps what has been written and logged before it. -/
abbrev Run := ExceptT Failure (StateM Session)

namespace Run

/-- A result that is known without doing anything. -/
def lift {α : Type} (result : Except Failure α) : Run α := ExceptT.mk (pure result)

/-- Logs records. -/
def log (records : List LogRecord) : Run Unit :=
  modify fun s => { s with logs := s.logs ++ records }

/-- A step that generates something, of which the log records are kept. -/
def generate {α : Type} (step : Emit α) : Run α := do
  log (Emit.logs step.out)
  lift step.result

/-- A step that works on the files. -/
def onFiles {α : Type} (step : Store.Step α) : Run α := do
  let s ← get
  let (result, store) := step.run.run s.store
  set { s with store }
  lift result

/-- The text of a file. -/
def readText (name : String) : Run String := do
  lift ((← get).store.text (Path.ofText name))

end Run

/-- A setting that is left empty is not there. -/
def nonEmpty? (text : String) : Option String :=
  if text.isEmpty then none else some text

/-- The settings of arguments; of several problems the first one is reported. -/
def settingsOf (a : Arguments) : Except Failure Settings :=
  match Settings.ofValue a.toValue with
  | .ok s => .ok s
  | .error [] => .error (.badSettings .notAnObject)
  | .error (problem :: _) => .error (.badSettings problem)

/-- The type map of a run, whose dependencies have to be listed if a list is given. -/
def loadTypeMap (s : Settings) : Run TypeMap := do
  let custom := (nonEmpty? s.typeMapFile).map Path.ofText
  let map ← Run.generate (TypeMap.Shared.ask {} (← get).store custom)
  match nonEmpty? s.dependencyFile with
  | none => pure ()
  | some file => do
    let listed ← Run.readText file
    Run.lift (map.verifyDependencies listed)
  return map

/-- The schema files of a descriptor set. -/
def readDescriptorSet (path : Path) : Run (List FileDecl) := do
  let bytes ← Run.lift ((← get).store.bytes path)
  Run.lift (Schema.DescriptorSet.read path.text bytes)

/-- The schema files that a compiler makes of the files of a flag. -/
def compile (compiler : Compiler) (importPaths files : List String) : Run (List FileDecl) := do
  let arguments := compiler.arguments importPaths files
  Run.log [⟨Log.debug, "Running: " ++ " ".intercalate (Compiler.program :: arguments)⟩]
  let s ← get
  let (compilation, store) := compiler.call arguments s.store
  set { s with store }
  Run.lift (compiler.read compilation)

/-- The schema files of a run, which are compiled unless there is a descriptor set. -/
def schemaFiles (compiler : Compiler) (s : Settings) : Run (List FileDecl) :=
  match s.descriptorSet with
  | some file => readDescriptorSet (Path.ofText file)
  | none => compile compiler s.importPaths (Selection.listedFiles s.selection)

/-- The schema of a run. -/
def loadSchema (compiler : Compiler) (s : Settings) : Run Pool := do
  let files ← schemaFiles compiler s
  let (logs, pool) := Pool.load files
  Run.log logs
  Run.lift pool

/-- How deep fields are expanded. Without a limit all of them are, unless all messages have builders
of their own. -/
def depthOf (s : Settings) (selection : Selection) : Option Nat :=
  match s.maxFieldDepth.toNat with
  | 0 => if selection.mode = .transitiveAll then some 1 else none
  | n => some n

/-- The code of the messages that are selected from a schema. -/
def assembleSelected (s : Settings) (typeMap : TypeMap) (pool : Pool) : Run Assembly := do
  let selection ← Run.lift (Selection.ofFlag pool s.selection)
  Run.log [selection.report]
  let header ← Run.lift
    (Name.reference ((nonEmpty? s.headerReference).getD s.header) s.stripPrefixes)
  let interfaceHeader ← Run.lift (Name.reference s.interface s.stripPrefixes)
  Run.generate (Assembly.ofSetup
    { typeMap
      pool
      messages := selection.messages
      header
      maxFieldDepth := depthOf s selection
      useValidator := s.useValidator
      validatorHeader := s.validatorHeader
      makeInterface := s.makeInterface
      interfaceHeader })

/-- The code of a run. -/
def assemble (compiler : Compiler) (s : Settings) : Run Assembly := do
  let typeMap ← loadTypeMap s
  let pool ← loadSchema compiler s
  assembleSelected s typeMap pool

/-- Writes a file unless it is up to date. -/
def writeFile (name text : String) : Run Unit := do
  if ← Run.onFiles (Store.writeIfChanged (Path.ofText name) text) then
    Run.log [⟨Log.info, "Wrote " ++ name⟩]
  else Run.log [⟨Log.debug, name ++ " is up to date"⟩]

/-- The files of a run and the channels that they hold. -/
def outputs (s : Settings) : List (Channel × String) :=
  [(.header, s.header), (.source, s.source)]
    ++ if s.makeInterface then [(.interface, s.interface)] else []

/-- Generates and writes all files of a run. -/
def generateFiles (compiler : Compiler) (s : Settings) : Run Unit := do
  let assembly ← assemble compiler s
  let buffer := assembly.layOut
  (outputs s).forM fun output => writeFile output.2 (buffer.contents output.1)

/-- How a run ends. -/
inductive Outcome where
  /-- The arguments ask for nothing to be generated. -/
  | ended (ending : Ending)
  /-- The run comes to its end; a failure has been logged. -/
  | finished (succeeded : Bool)
  /-- The run breaks off. -/
  | brokenOff (failure : Failure)
  deriving DecidableEq, Repr

/-- A run that has ended: how, the files afterwards, and the text of its log. -/
structure Report where
  outcome : Outcome
  store : Store
  transcript : String := ""
  deriving DecidableEq, Repr

/-- How much is logged: details if they are asked for, otherwise only what is grave if silence
is. -/
def thresholdOf (a : Arguments) : Nat :=
  if a.verbose then Log.debug else if a.quiet then Log.warning else Log.info

/-- Generates with arguments that could be read. -/
def runWith (compiler : Compiler) (useColor : Bool) (a : Arguments) (store : Store) : Report :=
  let steps : Run Unit := do
    let s ← Run.lift (settingsOf a)
    generateFiles compiler s
  let (result, session) := steps.run.run { store }
  let report (outcome : Outcome) (more : List LogRecord) : Report :=
    { outcome
      store := session.store
      transcript := Log.transcript ⟨thresholdOf a, useColor⟩ (session.logs ++ more) }
  match result with
  | .ok _ => report (.finished true) []
  | .error failure =>
    if failure.isReported then
      report (.finished false) [⟨Log.error, failure.message⟩]
    else report (.brokenOff failure) []

/-- A run with the arguments of the command line. -/
def run (useColor : Bool) (arguments : List String) (store : Store)
    (compiler : Compiler := .missing) : Report :=
  match Arguments.ofTexts arguments with
  | .ok a => runWith compiler useColor a store
  | .error ending => { outcome := .ended ending, store }

end FluentGen.CommandLine
