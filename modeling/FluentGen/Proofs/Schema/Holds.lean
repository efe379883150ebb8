import FluentGen.Schema.Selection
import Mathlib.Logic.Relation

/-!
What a message holds. A message holds another one of its file as the element of a field, and it
reaches what it holds in any number of steps.
-/

namespace FluentGen.Schema

namespace Pool

/-- A message holds another message of a file. A field of kind message holds its element, several
times if it is repeated; a map field holds the message of its values several times. -/
inductive Holds (pool : Pool) (file : String) (m : Message) :
    (several : Bool) → Message → Prop where
  | element {f : Field} {inner : Message} (field : f ∈ m.fields) (kind : f.kind = .message)
      (noMap : pool.isMap f = false) (target : pool.targetMessage? f = some inner)
      (inside : inner.address.file = file) : Holds pool file m f.isRepeated inner
  | mapValue {f v : Field} {inner : Message} (field : f ∈ m.fields) (kind : f.kind = .message)
      (map : pool.isMap f = true) (value : pool.mapValue? f = some v)
      (valueKind : v.kind = .message) (target : pool.targetMessage? v = some inner)
      (inside : inner.address.file = file) : Holds pool file m true inner

/-- The top level messages of a file reach a message in any number of steps, each of them into a
message that is held. -/
def Reaches (pool : Pool) (file : String) (m : Message) : Prop :=
  ∃ top ∈ pool.topLevel file,
    Relation.ReflTransGen (fun outer inner => ∃ several, pool.Holds file outer several inner) top m

theorem elementMessage?_eq_some_iff {pool : Pool} {f : Field} {inner : Message} {several : Bool} :
    pool.elementMessage? f = some (inner, several) ↔
      f.kind = .message ∧
        ((pool.isMap f = false ∧ pool.targetMessage? f = some inner ∧ f.isRepeated = several) ∨
          (pool.isMap f = true ∧ several = true ∧ ∃ value, pool.mapValue? f = some value ∧
            value.kind = .message ∧ pool.targetMessage? value = some inner)) := by
  unfold elementMessage?
  by_cases hkind : f.kind = .message
  · cases hmap : pool.isMap f with
    | false =>
      cases pool.targetMessage? f with
      | none => simp [hkind]
      | some target => simp [hkind]
    | true =>
      cases hvalue : pool.mapValue? f with
      | none => simp [hkind]
      | some value =>
        by_cases hvalueKind : value.kind = .message
        · cases htarget : pool.targetMessage? value with
          | none => simp [hkind, hvalueKind, htarget]
          | some target => simp [hkind, hvalueKind, htarget, and_comm, eq_comm]
        · simp [hkind, hvalueKind]
  · simp [hkind]

theorem holds_iff {pool : Pool} {file : String} {m inner : Message} {several : Bool} :
    pool.Holds file m several inner ↔
      inner.address.file = file ∧
        ∃ f ∈ m.fields, pool.elementMessage? f = some (inner, several) := by
  simp only [elementMessage?_eq_some_iff]
  constructor
  · intro h
    cases h with
    | element field kind noMap target inside =>
      exact ⟨inside, _, field, kind, Or.inl ⟨noMap, target, rfl⟩⟩
    | mapValue field kind map value valueKind target inside =>
      exact ⟨inside, _, field, kind, Or.inr ⟨map, rfl, _, value, valueKind, target⟩⟩
  · rintro ⟨inside, f, field, kind, ⟨noMap, target, rfl⟩ | ⟨map, rfl, v, value, valueKind, target⟩⟩
    · exact .element field kind noMap target inside
    · exact .mapValue field kind map value valueKind target inside

theorem mem_messages_of_targetMessage? {pool : Pool} {f : Field} {inner : Message}
    (h : pool.targetMessage? f = some inner) : inner ∈ pool.messages := by
  unfold targetMessage? at h
  split at h
  · exact List.mem_of_find?_eq_some h
  · cases h

theorem Holds.mem_messages {pool : Pool} {file : String} {m inner : Message} {several : Bool}
    (h : pool.Holds file m several inner) : inner ∈ pool.messages := by
  cases h with
  | element field kind noMap target inside => exact mem_messages_of_targetMessage? target
  | mapValue field kind map value valueKind target inside =>
    exact mem_messages_of_targetMessage? target

theorem reaches_of_mem_topLevel {pool : Pool} {file : String} {m : Message}
    (h : m ∈ pool.topLevel file) : pool.Reaches file m :=
  ⟨m, h, .refl⟩

theorem Reaches.step {pool : Pool} {file : String} {outer inner : Message} {several : Bool}
    (h : pool.Reaches file outer) (hholds : pool.Holds file outer several inner) :
    pool.Reaches file inner := by
  obtain ⟨top, htop, hsteps⟩ := h
  exact ⟨top, htop, hsteps.tail ⟨several, hholds⟩⟩

/-- A message that is reached stands at the top level or is held by one that is reached. -/
theorem reaches_iff {pool : Pool} {file : String} {m : Message} :
    pool.Reaches file m ↔
      m ∈ pool.topLevel file ∨
        ∃ outer several, pool.Reaches file outer ∧ pool.Holds file outer several m := by
  constructor
  · rintro ⟨top, htop, hsteps⟩
    cases hsteps with
    | refl => exact Or.inl htop
    | tail hbefore hlast =>
      obtain ⟨several, hholds⟩ := hlast
      exact Or.inr ⟨_, several, ⟨top, htop, hbefore⟩, hholds⟩
  · rintro (htop | ⟨outer, several, houter, hholds⟩)
    · exact reaches_of_mem_topLevel htop
    · exact houter.step hholds

end Pool

end FluentGen.Schema
