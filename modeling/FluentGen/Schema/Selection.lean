import FluentGen.Schema.Load

/-!
Which messages get builders: messages named one by one, all top level messages of a file, or these
and what their fields reach inside the file.

The messages that fields reach are visited breadth first. Every message enters the queue once, so
the number of messages bounds the number of visits.
-/

namespace FluentGen.Schema

/-- How messages are selected. -/
inductive SearchMode where
  | explicit
  | allTopLevel
  /-- All top level messages, and those that repeated fields hold. -/
  | transitiveRepeated
  /-- All top level messages and all that fields hold. -/
  | transitiveAll
  deriving DecidableEq, Repr

/-- The mode that stands in the place of message names. -/
def SearchMode.ofNames : String → SearchMode
  | "**" => .transitiveAll
  | "*+" => .transitiveRepeated
  | "*" => .allTopLevel
  | _ => .explicit

/-- The message that an element of a field holds, and whether the field holds several: the message
itself, or the message type of a map's values. A group holds none. -/
def Pool.elementMessage? (pool : Pool) (f : Field) : Option (Message × Bool) := do
  if f.kind ≠ .message then none
  if pool.isMap f then
    let value ← pool.mapValue? f
    if value.kind ≠ .message then none
    return (← pool.targetMessage? value, true)
  else return (← pool.targetMessage? f, f.isRepeated)

/-- A search: what has been selected, what has ever been queued, and what is still to visit. -/
structure Search where
  selected : List Message
  queued : List Address
  queue : List Message

namespace Search

/-- Looks at one field of a visited message. -/
def lookAt (pool : Pool) (file : String) (all : Bool) (s : Search) (f : Field) : Search :=
  match pool.elementMessage? f with
  | none => s
  | some (m, several) =>
    if s.selected.any (·.address == m.address) || m.address.file != file then s
    else
      let selected := if several || all then s.selected ++ [m] else s.selected
      if s.queued.contains m.address then { s with selected }
      else { selected, queued := m.address :: s.queued, queue := s.queue ++ [m] }

/-- Visits queued messages until none is left. -/
def visit (pool : Pool) (file : String) (all : Bool) : (visits : Nat) → Search → Search
  | 0, s => s
  | visits + 1, s =>
    match s.queue with
    | [] => s
    | m :: queue =>
      visit pool file all visits (m.fields.foldl (lookAt pool file all) { s with queue })

end Search

namespace Pool

/-- The messages of a file that a mode selects: first the top level ones, then those reached from
them, in the order in which they are found. -/
def select (pool : Pool) (file : String) (mode : SearchMode) : List Message :=
  let start := pool.topLevel file
  match mode with
  | .explicit | .allTopLevel => start
  | .transitiveRepeated | .transitiveAll =>
    (Search.visit pool file (mode == .transitiveAll) (pool.messages.length + 1)
      ⟨start, start.map (·.address), start⟩).selected

end Pool

/-- The messages that were asked for. -/
structure Selection where
  mode : SearchMode
  messages : List Message
  deriving DecidableEq, Repr

namespace Selection

/-- The messages with the given names. -/
def named (pool : Pool) : List String → Except Failure (List Message)
  | [] => .ok []
  | name :: rest =>
    match pool.messageNamed? name with
    | none => .error (.unknownMessage name)
    | some m => do return m :: (← named pool rest)

/-- The files that a flag lists behind its first colon. -/
def listedFiles (flag : String) : List String :=
  (Text.split ',' ((Text.cut ':' flag).2.getD "")).filter fun file => !file.isEmpty

/-- Reads a flag: message names or a mode, a colon, and files, which are added to the given ones.
All files must be there; a mode selects from the first one. -/
def ofFlag (pool : Pool) (flag : String) (files : List String := []) :
    Except Failure Selection := do
  let names := (Text.cut ':' flag).1
  let mode := SearchMode.ofNames names
  let files := files ++ listedFiles flag
  if files.any fun file => (pool.file? file).isNone then throw (.unknownFiles files)
  if mode = .explicit then
    return ⟨mode, ← named pool (Text.split ',' names)⟩
  else
    match files with
    | [] => throw .noFiles
    | file :: _ => return ⟨mode, pool.select file mode⟩

/-- What is logged about a selection. -/
def report (s : Selection) : LogRecord :=
  ⟨Log.debug, "Selected " ++ Number.integerText s.messages.length ++ " message(s): "
    ++ ", ".intercalate (s.messages.map (·.fullName))⟩

/-- The full names of the messages, in order and each listed once. -/
def fullNames (s : Selection) : List String :=
  (KeyMap.ofList (s.messages.map fun m => (m.fullName, ()))).entries.map Prod.fst

end Selection

end FluentGen.Schema
