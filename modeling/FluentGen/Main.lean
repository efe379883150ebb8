import FluentGen.CommandLine.Run

/-!
The command line program. It loads the files that a run may look at into a store, runs, and writes
the files that have changed. It calls no other program, so it needs a descriptor set.
-/

namespace FluentGen.CommandLine

/-- How the program is used. -/
def usage : String :=
  "usage: fluent-gen --proto <messages>:<file>[,<file>...] --header <file> --source <file>\n"
    ++ "  reads a schema and generates a builder class for each of its messages\n"
    ++ "options:\n"
    ++ String.join (longNames.map fun option => "  " ++ option.1 ++ "\n")

/-- The names of the files that a run with the given arguments may look at. -/
def filesOf (a : Arguments) : List String :=
  (a.header.toList ++ a.source.toList ++ a.descriptorSet.toList
    ++ [a.interface, a.dependencyFile, a.typeMapFile]).filter fun name => !name.isEmpty

/-- A store with the files that can be read; any other one is taken for missing. -/
def readFiles (names : List String) : IO Store := do
  let mut store : Store := {}
  for name in names do
    try
      let bytes ← IO.FS.readBinFile name
      store := ((Store.write (Path.ofText name) bytes.toList).run.run store).2
    catch _ => pure ()
  return store

/-- Writes a file and the folders around it; false if it cannot be written. -/
def writeChanged (name : String) (bytes : List UInt8) : IO Bool := do
  try
    let folder := (Text.cutLast '/' name).1
    if !folder.isEmpty then IO.FS.createDirAll folder
    IO.FS.writeBinFile name ⟨bytes.toArray⟩
    return true
  catch _ => return false

/-- The files that a run has changed. -/
def changedFiles (names : List String) (before after : Store) : List (String × List UInt8) :=
  names.filterMap fun name =>
    match after.find? (Path.ofText name) with
    | some (.file bytes) =>
      if before.find? (Path.ofText name) = some (.file bytes) then none else some (name, bytes)
    | _ => none

/-- Runs and writes what has changed. If a file turns out to be unwritable, the run is done again
with a folder in its place, so it fails where the file would be written. -/
def runOnFiles (useColor : Bool) (a : Arguments) : (attempts : Nat) → Store → IO Report
  | 0, store => return runWith .missing useColor a store
  | attempts + 1, store => do
    let report := runWith .missing useColor a store
    let names := a.header.toList ++ a.source.toList ++ [a.interface]
    for (name, bytes) in changedFiles names store report.store do
      if !(← writeChanged name bytes) then
        return ← runOnFiles useColor a attempts (store.addFolder (Path.ofText name))
    return report

/-- Runs with the arguments of the command line and gives the exit code. -/
def main (arguments : List String) : IO UInt32 := do
  match Arguments.ofTexts arguments with
  | .error .help => IO.print usage; return 0
  | .error .version => IO.print versionText; return 0
  | .error .mistake => IO.eprint usage; return 2
  | .ok a => do
    let useColor := (← IO.getEnv "NO_COLOR").isNone
    let report ← runOnFiles useColor a 3 (← readFiles (filesOf a))
    IO.eprint report.transcript
    match report.outcome with
    | .finished true | .ended _ => return 0
    | .finished false => return 1
    | .brokenOff failure => IO.eprintln failure.message; return 1

end FluentGen.CommandLine

/-- The program. -/
def main (arguments : List String) : IO UInt32 :=
  FluentGen.CommandLine.main arguments
