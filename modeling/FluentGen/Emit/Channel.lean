/-!
The files that code is written to, and values that exist once for each of them.
-/

universe u v

namespace FluentGen

/-- Where a line of code goes: the header, the source, or the interface header. -/
inductive Channel where
  | header
  | source
  | interface
  deriving DecidableEq, Repr, Inhabited

/-- All channels. -/
def Channel.all : List Channel := [.header, .source, .interface]

/-- The name of a channel. -/
def Channel.name : Channel → String
  | header => "HEADER"
  | source => "SOURCE"
  | interface => "INTERFACE"

/-- A value for each channel. -/
structure PerChannel (α : Type u) where
  header : α
  source : α
  interface : α
  deriving DecidableEq, Repr, Inhabited

namespace PerChannel

variable {α : Type u} {β : Type v}

/-- The same value for every channel. -/
def all (a : α) : PerChannel α := ⟨a, a, a⟩

/-- The value of a channel. -/
def get (p : PerChannel α) : Channel → α
  | .header => p.header
  | .source => p.source
  | .interface => p.interface

/-- The values with that of one channel replaced. -/
def set (p : PerChannel α) (channel : Channel) (a : α) : PerChannel α :=
  match channel with
  | .header => { p with header := a }
  | .source => { p with source := a }
  | .interface => { p with interface := a }

/-- The values with that of one channel changed. -/
def modify (p : PerChannel α) (channel : Channel) (f : α → α) : PerChannel α :=
  p.set channel (f (p.get channel))

@[simp] theorem get_all (a : α) (c : Channel) : (all a).get c = a := by
  cases c <;> rfl

@[simp] theorem get_set (p : PerChannel α) (channel : Channel) (a : α) (c : Channel) :
    (p.set channel a).get c = if c = channel then a else p.get c := by
  cases channel <;> cases c <;> rfl

end PerChannel

end FluentGen
