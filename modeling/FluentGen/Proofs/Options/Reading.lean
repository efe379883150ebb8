import FluentGen.Options.Text
import FluentGen.Proofs.KeyMap
import Mathlib.Data.List.Forall2

/-!
What fields look like that are read as options. Every field belongs to a slot, the messages of a
map are its entries, and a message is read as an entry in five shapes only, since neither its key
nor its value may be given twice.
-/

namespace FluentGen

open TextFormat (Field Value)

theorem forall₂_of_mapM {α β : Type} {f : α → Option β} {items : List α} {results : List β}
    (h : items.mapM f = some results) : List.Forall₂ (fun a b => f a = some b) items results := by
  induction items generalizing results with
  | nil =>
    cases h
    exact .nil
  | cons a items ih =>
    simp only [List.mapM_cons, Option.bind_eq_bind, Option.bind_eq_some_iff] at h
    obtain ⟨b, hb, rest, hrest, h⟩ := h
    cases h
    exact .cons hb (ih hrest)

theorem exists_of_mem_mapM {α β : Type} {f : α → Option β} {items : List α} {results : List β}
    (h : items.mapM f = some results) {a : α} (ha : a ∈ items) : ∃ b, f a = some b := by
  induction items generalizing results with
  | nil => cases ha
  | cons first items ih =>
    simp only [List.mapM_cons, Option.bind_eq_bind, Option.bind_eq_some_iff] at h
    obtain ⟨b, hb, rest, hrest, -⟩ := h
    rcases List.mem_cons.1 ha with rfl | ha
    · exact ⟨b, hb⟩
    · exact ih hrest ha

/-- The messages of a value: itself, or the items of a list. -/
def messagesIn (value : Value) : List (List Field) :=
  value.messages?.getD []

/-- The messages of all fields with a name. -/
def messagesOf (name : String) (fields : List Field) : List (List Field) :=
  fields.flatMap fun f => if f.name = name then messagesIn f.value else []

namespace MapEntry

variable {α : Type} {codec : Codec α} {missing : α}

/-- The shapes of a message that is read as an entry. -/
inductive Shape (codec : Codec α) (missing : α) : List Field → String → α → Prop where
  | empty : Shape codec missing [] "" missing
  | key {key : String} : Shape codec missing [.mk "key" true (.text key)] key missing
  | value {colon : Bool} {v : Value} {a : α} (hvalue : codec.read? colon v = some a) :
    Shape codec missing [.mk "value" colon v] "" a
  | keyValue {key : String} {colon : Bool} {v : Value} {a : α}
      (hvalue : codec.read? colon v = some a) :
    Shape codec missing [.mk "key" true (.text key), .mk "value" colon v] key a
  | valueKey {key : String} {colon : Bool} {v : Value} {a : α}
      (hvalue : codec.read? colon v = some a) :
    Shape codec missing [.mk "value" colon v, .mk "key" true (.text key)] key a

/-- What one field of an entry does. -/
theorem addField_cases {entry next : Option String × Option α} {f : Field}
    (h : addField codec entry f = some next) :
    (∃ key, f = .mk "key" true (.text key) ∧ entry.1 = none ∧ next = (some key, entry.2)) ∨
      ∃ colon v a, f = .mk "value" colon v ∧ codec.read? colon v = some a ∧ entry.2 = none ∧
        next = (entry.1, some a) := by
  have hset : ∀ {β : Type} {old new : Option β} {result}, setOnce old new = some result →
      old = none ∧ ∃ b, new = some b ∧ result = some b := by
    intro β old new result hresult
    unfold setOnce at hresult
    split at hresult
    · cases hresult
      exact ⟨rfl, _, rfl, rfl⟩
    · cases hresult
  obtain ⟨name, colon, v⟩ := f
  unfold addField at h
  split at h
  · next heq =>
    cases heq
    simp only [Option.bind_eq_bind, Option.bind_eq_some_iff] at h
    obtain ⟨result, hresult, h⟩ := h
    obtain ⟨hold, key, htext, rfl⟩ := hset hresult
    cases h
    left
    cases v with
    | text content =>
      cases colon with
      | true =>
        cases htext
        exact ⟨key, rfl, hold, rfl⟩
      | false => cases htext
    | atom spelling => cases htext
    | message fields => cases htext
    | list items => cases htext
  · next heq =>
    cases heq
    simp only [Option.bind_eq_bind, Option.bind_eq_some_iff] at h
    obtain ⟨result, hresult, h⟩ := h
    obtain ⟨hold, a, hread, rfl⟩ := hset hresult
    cases h
    exact Or.inr ⟨colon, v, a, rfl, hread, hold, rfl⟩
  · cases h

/-- A message that is read as an entry has one of the shapes. -/
theorem shape_of_ofFields? {fields : List Field} {entry : String × α}
    (h : ofFields? codec missing fields = some entry) :
    Shape codec missing fields entry.1 entry.2 := by
  simp only [ofFields?, Option.bind_eq_bind, Option.bind_eq_some_iff, Prod.exists] at h
  obtain ⟨key, value, hfold, h⟩ := h
  cases h
  have hfull : ∀ {fields : List Field} {k : String} {a : α} {next},
      fields.foldlM (addField codec) (some k, some a) = some next →
        fields = [] ∧ next = (some k, some a) := by
    intro fields k a next hnext
    cases fields with
    | nil =>
      cases hnext
      exact ⟨rfl, rfl⟩
    | cons f fields =>
      simp only [List.foldlM_cons, Option.bind_eq_bind, Option.bind_eq_some_iff] at hnext
      obtain ⟨entry, hentry, -⟩ := hnext
      rcases addField_cases hentry with ⟨_, _, hold, _⟩ | ⟨_, _, _, _, _, hold, _⟩
      · cases hold
      · cases hold
  cases fields with
  | nil =>
    cases hfold
    exact .empty
  | cons f fields =>
    simp only [List.foldlM_cons, Option.bind_eq_bind, Option.bind_eq_some_iff] at hfold
    obtain ⟨first, hfirst, hfold⟩ := hfold
    rcases addField_cases hfirst with ⟨k, rfl, -, rfl⟩ | ⟨colon, v, a, rfl, hread, -, rfl⟩
    · cases fields with
      | nil =>
        cases hfold
        exact .key
      | cons g fields =>
        simp only [List.foldlM_cons, Option.bind_eq_bind, Option.bind_eq_some_iff] at hfold
        obtain ⟨second, hsecond, hfold⟩ := hfold
        rcases addField_cases hsecond with ⟨_, _, hold, _⟩ | ⟨colon, v, a, rfl, hread, -, rfl⟩
        · cases hold
        · obtain ⟨rfl, hnext⟩ := hfull hfold
          cases hnext
          exact .keyValue hread
    · cases fields with
      | nil =>
        cases hfold
        exact .value hread
      | cons g fields =>
        simp only [List.foldlM_cons, Option.bind_eq_bind, Option.bind_eq_some_iff] at hfold
        obtain ⟨second, hsecond, hfold⟩ := hfold
        rcases addField_cases hsecond with ⟨k, rfl, -, rfl⟩ | ⟨_, _, _, _, _, hold, _⟩
        · obtain ⟨rfl, hnext⟩ := hfull hfold
          cases hnext
          exact .valueKey hread
        · cases hold

end MapEntry

namespace Slot

variable {S : Type} {slots : List (Slot S)}

theorem addField_cases {s next : S} {f : Field} (h : addField slots s f = some next) :
    ∃ slot ∈ slots, slot.name = f.name ∧
      (slots.find? fun other => other.name == f.name) = some slot ∧
      slot.addValue s f.colon f.value = some next := by
  unfold addField at h
  split at h
  · next slot hfind =>
    have hname : slot.name = f.name := by simpa using List.find?_some hfind
    exact ⟨slot, List.mem_of_find?_eq_some hfind, hname, hfind, h⟩
  · cases h

/-- Every field that is read belongs to a slot, which has taken its value. -/
theorem exists_slot_of_addFields {fields : List Field} {s last : S}
    (h : addFields slots s fields = some last) {f : Field} (hf : f ∈ fields) :
    ∃ slot ∈ slots, slot.name = f.name ∧
      ∃ before next, slot.addValue before f.colon f.value = some next := by
  induction fields generalizing s with
  | nil => cases hf
  | cons g rest ih =>
    simp only [addFields, List.foldlM_cons, Option.bind_eq_bind, Option.bind_eq_some_iff] at h
    obtain ⟨next, hnext, hrest⟩ := h
    rcases List.mem_cons.1 hf with rfl | hf
    · obtain ⟨slot, hslot, hname, -, hvalue⟩ := addField_cases hnext
      exact ⟨slot, hslot, hname, s, next, hvalue⟩
    · exact ih hrest hf

/-- The slot leaves a part of the record alone. -/
def Keeps {β : Type} (get : S → β) : Slot S → Prop
  | single _ _ lens => ∀ s x, get (lens.set s x) = get s
  | repeated _ lens => ∀ s x, get (lens.set s x) = get s
  | mapped _ _ _ lens => ∀ s x, get (lens.set s x) = get s

theorem Keeps.get_eq {β : Type} {get : S → β} {slot : Slot S} (h : slot.Keeps get) {s next : S}
    {colon : Bool} {value : Value} (hvalue : slot.addValue s colon value = some next) :
    get next = get s := by
  cases slot with
  | single name codec lens =>
    simp only [addValue, Option.bind_eq_bind, Option.bind_eq_some_iff] at hvalue
    obtain ⟨x, -, hnext⟩ := hvalue
    cases hnext
    exact h s x
  | repeated name lens =>
    simp only [addValue, Option.bind_eq_bind, Option.bind_eq_some_iff] at hvalue
    obtain ⟨x, -, hnext⟩ := hvalue
    cases hnext
    exact h s _
  | mapped name codec missing lens =>
    simp only [addValue, Option.bind_eq_bind, Option.bind_eq_some_iff] at hvalue
    obtain ⟨_, -, x, -, hnext⟩ := hvalue
    cases hnext
    exact h s _

/-- The messages of a value that a map has taken are read as the entries that were added. -/
theorem addValue_mapped {α : Type} {name : String} {codec : Codec α} {missing : α}
    {lens : Lens S (KeyMap α)} {s next : S} {colon : Bool} {value : Value}
    (h : (mapped name codec missing lens).addValue s colon value = some next) :
    ∃ entries, List.Forall₂
        (fun message entry => MapEntry.ofFields? codec missing message = some entry)
        (messagesIn value) entries ∧
      lens.get next = (lens.get s).addAll entries := by
  simp only [addValue, Option.bind_eq_bind, Option.bind_eq_some_iff] at h
  obtain ⟨messages, hmessages, entries, hentries, hnext⟩ := h
  cases hnext
  refine ⟨entries, ?_, lens.get_set _ _⟩
  rw [messagesIn, hmessages]
  exact forall₂_of_mapM hentries

/-- A map holds the entries of all messages of its fields, if no other slot touches it. -/
theorem get_addFields_mapped {α : Type} {name : String} {codec : Codec α} {missing : α}
    {lens : Lens S (KeyMap α)}
    (hfind : (slots.find? fun slot => slot.name == name) =
      some (mapped name codec missing lens))
    (hkeeps : ∀ slot ∈ slots, slot.name ≠ name → slot.Keeps lens.get) {fields : List Field}
    {s last : S} (h : addFields slots s fields = some last) :
    ∃ entries, List.Forall₂
        (fun message entry => MapEntry.ofFields? codec missing message = some entry)
        (messagesOf name fields) entries ∧
      lens.get last = (lens.get s).addAll entries := by
  induction fields generalizing s with
  | nil =>
    cases h
    exact ⟨[], .nil, rfl⟩
  | cons f rest ih =>
    simp only [addFields, List.foldlM_cons, Option.bind_eq_bind, Option.bind_eq_some_iff] at h
    obtain ⟨next, hnext, hrest⟩ := h
    obtain ⟨entries, hentries, hlast⟩ := ih hrest
    obtain ⟨slot, hslot, hname, hfound, hvalue⟩ := addField_cases hnext
    rw [messagesOf, List.flatMap_cons]
    by_cases hf : f.name = name
    · rw [hf, hfind] at hfound
      cases hfound
      obtain ⟨first, hfirst, hget⟩ := addValue_mapped hvalue
      refine ⟨first ++ entries, ?_, ?_⟩
      · rw [if_pos hf]
        exact List.rel_append hfirst hentries
      · rw [hlast, hget, KeyMap.addAll_append]
    · have hget := (hkeeps slot hslot (hname ▸ hf)).get_eq hvalue
      refine ⟨entries, ?_, ?_⟩
      · rw [if_neg hf]
        exact hentries
      · rw [hlast, hget]

end Slot

end FluentGen
