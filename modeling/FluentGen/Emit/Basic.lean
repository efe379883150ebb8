import FluentGen.Emit.Channel
import FluentGen.Log
import FluentGen.Name.Guard

/-!
What a generator produces. A step produces lines, includes and log records in order, and then a
result or a failure; what it has produced before a failure stays.
-/

namespace FluentGen

/-- One thing that is produced. -/
inductive Emission where
  | line (channel : Channel) (text : String)
  /-- The operand of an include line that the channel needs. -/
  | needs (channel : Channel) (operand : String)
  | log (record : LogRecord)
  deriving DecidableEq, Repr

/-- A step: what it produces, in order, and how it ends. -/
structure Emit (α : Type) where
  out : List Emission
  result : Except Failure α

namespace Emit

variable {α β : Type}

/-- The step that produces nothing. -/
protected def pure (a : α) : Emit α := ⟨[], .ok a⟩

/-- A step and then the one that its result asks for; after a failure nothing more is produced. -/
protected def bind (step : Emit α) (next : α → Emit β) : Emit β :=
  match step.result with
  | .error failure => ⟨step.out, .error failure⟩
  | .ok a => ⟨step.out ++ (next a).out, (next a).result⟩

instance : Monad Emit where
  pure := Emit.pure
  bind := Emit.bind

/-- A result that is known without producing anything. -/
def lift (result : Except Failure α) : Emit α := ⟨[], result⟩

/-- Produces a line. -/
def line (channel : Channel) (text : String) : Emit Unit := ⟨[.line channel text], .ok ()⟩

/-- Produces several lines. -/
def lines (channel : Channel) (texts : List String) : Emit Unit :=
  ⟨texts.map (.line channel), .ok ()⟩

/-- Asks for an include by its name. -/
def needs (channel : Channel) (name : String) : Emit Unit :=
  ⟨[.needs channel (Name.includeOperand name)], .ok ()⟩

/-- Asks for several includes. -/
def needsAll (channel : Channel) (names : List String) : Emit Unit :=
  ⟨names.map fun name => .needs channel (Name.includeOperand name), .ok ()⟩

/-- Logs a text. -/
def log (level : Nat) (text : String) : Emit Unit := ⟨[.log ⟨level, text⟩], .ok ()⟩

/-- The same step for every item of a list. -/
def each (items : List α) (step : α → Emit Unit) : Emit Unit :=
  match items with
  | [] => pure ()
  | a :: rest => do
    step a
    each rest step

/-- The lines for a channel. -/
def linesTo (channel : Channel) (out : List Emission) : List String :=
  out.filterMap fun
    | .line c text => if c = channel then some text else none
    | _ => none

/-- The log records. -/
def logs (out : List Emission) : List LogRecord :=
  out.filterMap fun
    | .log record => some record
    | _ => none

end Emit

end FluentGen
