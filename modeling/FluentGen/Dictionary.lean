import FluentGen.KeyMap

/-!
Values for a layout, in nested scopes. A scope has values of its own and named sections, which are
scopes inside it. A value that a scope does not have is that of the scope around it.
-/

namespace FluentGen

/-- A scope of a dictionary. -/
structure Scope where
  name : String
  /-- The scope around, by its number. -/
  parent : Option Nat := none
  values : KeyMap String := {}
  /-- The scopes inside, by the name of their section and in the order in which they were added. -/
  sections : KeyMap (List Nat) := {}
  deriving DecidableEq, Repr, Inhabited

/-- A dictionary: its scopes by number. The outermost one has number zero, and every other one has
a greater number than the one around it. -/
structure Dictionary where
  scopes : List Scope
  deriving DecidableEq, Repr

namespace Dictionary

/-- A dictionary with an empty outermost scope. -/
def root (name : String) : Dictionary := ⟨[{ name }]⟩

instance : Inhabited Dictionary := ⟨root ""⟩

/-- Changes a scope. -/
def modify (d : Dictionary) (scope : Nat) (f : Scope → Scope) : Dictionary :=
  ⟨d.scopes.modify scope f⟩

/-- Sets a value of a scope. -/
def setValue (d : Dictionary) (scope : Nat) (name value : String) : Dictionary :=
  d.modify scope fun s => { s with values := s.values.insert name value }

/-- Adds a scope to a section of another one and gives its number. -/
def addSection (d : Dictionary) (scope : Nat) (name : String) : Dictionary × Nat :=
  let added := d.scopes.length
  let d := d.modify scope fun s =>
    { s with sections := s.sections.insert name ((s.sections.get? name).getD [] ++ [added]) }
  (⟨d.scopes ++ [{ name, parent := some scope }]⟩, added)

/-- The value of a name in a scope or the nearest one around it that has one, of which there are at
most `depth`. -/
def valueFrom (d : Dictionary) (name : String) : (depth : Nat) → (scope : Nat) → String
  | 0, _ => ""
  | depth + 1, scope =>
    match d.scopes[scope]? with
    | none => ""
    | some s =>
      match s.values.get? name with
      | some value => value
      | none =>
        match s.parent with
        | some parent => valueFrom d name depth parent
        | none => ""

/-- The value of a name in a scope; empty if there is none. -/
def value (d : Dictionary) (scope : Nat) (name : String) : String :=
  d.valueFrom name d.scopes.length scope

/-- The scopes of a section. -/
def sections (d : Dictionary) (scope : Nat) (name : String) : List Nat :=
  match d.scopes[scope]? with
  | none => []
  | some s => (s.sections.get? name).getD []

/-- Whether a section has a scope. -/
def hasSection (d : Dictionary) (scope : Nat) (name : String) : Bool :=
  !(d.sections scope name).isEmpty

/-- Sets several values of a scope. -/
def setValues (d : Dictionary) (scope : Nat) (values : List (String × String)) : Dictionary :=
  values.foldl (fun d v => d.setValue scope v.1 v.2) d

/-- Adds a scope with values to a section. -/
def addSectionWith (d : Dictionary) (scope : Nat) (name : String)
    (values : List (String × String)) : Dictionary :=
  let (d, added) := d.addSection scope name
  d.setValues added values

end Dictionary

end FluentGen
