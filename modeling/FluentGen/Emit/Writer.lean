import FluentGen.Emit.Basic
import FluentGen.KeyMap
import FluentGen.Name.TypeName

/-!
Where lines are collected. A buffer keeps the lines and includes of each channel; layers above it
change or drop lines on their way. Includes pass all layers.
-/

namespace FluentGen

/-- A set of names, listed in order. -/
abbrev NameSet := KeyMap Unit

namespace NameSet

/-- The names, in order. -/
def toList (names : NameSet) : List String :=
  names.entries.map Prod.fst

/-- The set with one more name. -/
def add (names : NameSet) (name : String) : NameSet :=
  names.insert name ()

end NameSet

/-- The lines and includes of each channel, and the package in whose namespace they stand. -/
structure Buffer where
  package : List String := []
  lines : PerChannel (List String) := .all []
  includes : PerChannel NameSet := .all {}
  deriving DecidableEq, Repr, Inhabited

namespace Buffer

/-- The buffer with a line added. -/
def write (b : Buffer) (channel : Channel) (line : String) : Buffer :=
  { b with lines := b.lines.modify channel (· ++ [line]) }

/-- The buffer with the operand of an include line added. -/
def addInclude (b : Buffer) (channel : Channel) (operand : String) : Buffer :=
  { b with includes := b.includes.modify channel (·.add operand) }

/-- The text of a channel. -/
def contents (b : Buffer) (c : Channel) : String :=
  "\n".intercalate (b.lines.get c)

/-- The buffer without the lines of a channel. -/
def clear (b : Buffer) (c : Channel) : Buffer :=
  { b with lines := b.lines.set c [] }

/-- The buffer with lines added. -/
def append (b : Buffer) (c : Channel) (lines : List String) : Buffer :=
  { b with lines := b.lines.modify c (· ++ lines) }

end Buffer

/-- A layer above a buffer, with what it remembers of each channel. -/
inductive Layer where
  | pass
  /-- Drops an empty line at the start and behind another empty line. `afterText` says whether the
  last line was not empty. -/
  | noDoubleEmpty (afterText : PerChannel Bool)
  /-- Puts an indent in front of lines that are not empty. -/
  | indent (indents : PerChannel String)
  deriving DecidableEq, Repr

namespace Layer

/-- A fresh layer against double empty lines. -/
def singleEmptyLines : Layer := .noDoubleEmpty (.all false)

/-- A layer that indents what is declared and what is defined. -/
def indenting (head body : String) : Layer := .indent ⟨head, body, head⟩

/-- The layer with the indent of one channel changed. -/
def withIndent (layer : Layer) (channel : Channel) (text : String) : Layer :=
  match layer with
  | indent indents => indent (indents.set channel text)
  | other => other

/-- Takes a line: the layer afterwards, and the line that goes on, if any. -/
def write (layer : Layer) (channel : Channel) (line : String) : Layer × Option String :=
  match layer with
  | pass => (pass, some line)
  | noDoubleEmpty afterText =>
    (noDoubleEmpty (afterText.set channel !line.isEmpty),
      if line.isEmpty && !afterText.get channel then none else some line)
  | indent indents =>
    (indent indents, some (if line.isEmpty then line else indents.get channel ++ line))

end Layer

/-- Layers above a buffer, the outermost first. -/
structure Stack where
  layers : List Layer
  buffer : Buffer
  deriving DecidableEq, Repr

namespace Stack

/-- Passes a line through layers. -/
def through (channel : Channel) : List Layer → String → List Layer × Option String
  | [], line => ([], some line)
  | layer :: rest, line =>
    match layer.write channel line with
    | (layer, none) => (layer :: rest, none)
    | (layer, some line) =>
      let (rest, line) := through channel rest line
      (layer :: rest, line)

/-- Takes a line. -/
def write (s : Stack) (channel : Channel) (line : String) : Stack :=
  match through channel s.layers line with
  | (layers, some line) => { layers, buffer := s.buffer.write channel line }
  | (layers, none) => { s with layers }

/-- Takes what a step has produced; log records go elsewhere. -/
def take (s : Stack) : List Emission → Stack
  | [] => s
  | .line channel text :: rest => (s.write channel text).take rest
  | .needs channel operand :: rest =>
    { s with buffer := s.buffer.addInclude channel operand }.take rest
  | .log _ :: rest => s.take rest

end Stack

/-- A writer among others: a buffer, or a layer above an earlier one. -/
inductive Writer where
  | buffer (b : Buffer)
  | above (layer : Layer) (base : Nat)
  deriving DecidableEq, Repr

/-- Writers by number. Writers above the same one share it, with all that it remembers. -/
abbrev Desk := List Writer

namespace Desk

/-- Writes a line to a writer and so to those below it, of which there are at most `depth`. -/
def writeDown (channel : Channel) : (depth : Nat) → Desk → (index : Nat) → String → Desk
  | 0, desk, _, _ => desk
  | depth + 1, desk, index, line =>
    match desk[index]? with
    | none => desk
    | some (.buffer b) => desk.set index (.buffer (b.write channel line))
    | some (.above layer base) =>
      let (layer, passed) := layer.write channel line
      let desk := desk.set index (.above layer base)
      match passed with
      | none => desk
      | some line => writeDown channel depth desk base line

/-- Writes a line to a writer. -/
def write (desk : Desk) (index : Nat) (channel : Channel) (line : String) : Desk :=
  writeDown channel desk.length desk index line

/-- The number of the buffer below a writer. -/
def bufferBelow : (depth : Nat) → Desk → (index : Nat) → Option (Nat × Buffer)
  | 0, _, _ => none
  | depth + 1, desk, index =>
    match desk[index]? with
    | none => none
    | some (.buffer b) => some (index, b)
    | some (.above _ base) => bufferBelow depth desk base

/-- The buffer at or below a writer. -/
def buffer? (desk : Desk) (index : Nat) : Option Buffer :=
  (bufferBelow desk.length desk index).map Prod.snd

/-- Changes the buffer at or below a writer. -/
def modifyBuffer (desk : Desk) (index : Nat) (f : Buffer → Buffer) : Desk :=
  match bufferBelow desk.length desk index with
  | none => desk
  | some (found, b) => desk.set found (.buffer (f b))

/-- Changes the indent of a writer. -/
def setIndent (desk : Desk) (index : Nat) (channel : Channel) (text : String) : Desk :=
  match desk[index]? with
  | some (.above layer base) => desk.set index (.above (layer.withIndent channel text) base)
  | _ => desk

/-- Moves the lines of a channel behind those of another buffer, which may be the same one: its
lines are doubled first and all are cleared then. -/
def move (desk : Desk) (c : Channel) (source target : Nat) : Desk :=
  match desk.buffer? source with
  | none => desk
  | some b =>
    (desk.modifyBuffer target (·.append c (b.lines.get c))).modifyBuffer source (·.clear c)

end Desk

end FluentGen
