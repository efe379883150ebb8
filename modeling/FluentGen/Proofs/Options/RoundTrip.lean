import FluentGen.Options.Text
import FluentGen.Proofs.KeyMap
import FluentGen.Proofs.TextFormat.RoundTrip

/-!
Options that are written and read again are the same options. Reading takes the fields in the order
in which they were written, so it fills one slot after the other, each of which is still empty when
its turn comes.
-/

namespace FluentGen

open TextFormat

section Values

variable {α : Type}

/-- A codec reads what it has written, and writes only words and texts. -/
structure Codec.Faithful (codec : Codec α) : Prop where
  read?_write : ∀ a, codec.read? (codec.write a).takesColon (codec.write a) = some a
  isWritable_write : ∀ a, (codec.write a).isWritable

namespace Codec

theorem faithful_text : text.Faithful where
  read?_write _ := rfl
  isWritable_write _ := rfl

theorem faithful_flag : flag.Faithful where
  read?_write a := by cases a <;> rfl
  isWritable_write a := by cases a <;> rfl

theorem faithful_mode : mode.Faithful where
  read?_write a := by cases a <;> rfl
  isWritable_write a := by cases a <;> rfl

end Codec

theorem areWritable_iff (fields : List Field) :
    areWritable fields ↔ ∀ f ∈ fields, f.isWritable := by
  induction fields with
  | nil => simp [areWritable]
  | cons f rest ih => simp [areWritable, ih]

/-- An entry is read from the message that was written for it. -/
theorem ofFields?_toValue {codec : Codec α} (h : codec.Faithful) (missing : α)
    (entry : String × α) :
    (MapEntry.toValue codec entry).message? >>= MapEntry.ofFields? codec missing =
      some entry := by
  obtain ⟨key, a⟩ := entry
  have hkey : MapEntry.addField codec (none, none) (.of "key" (.text key)) =
      some (some key, none) := rfl
  have hvalue : MapEntry.addField codec (some key, none) (.of "value" (codec.write a)) =
      some (some key, some a) := by
    have hread := h.read?_write a
    simp [MapEntry.addField, Field.of, hread, setOnce]
  have hfields : MapEntry.ofFields? codec missing
      [.of "key" (.text key), .of "value" (codec.write a)] = some (key, a) := by
    simp [MapEntry.ofFields?, hkey, hvalue]
  exact hfields

theorem isWritable_toValue {codec : Codec α} (h : codec.Faithful) (entry : String × α) :
    (MapEntry.toValue codec entry).isWritable := by
  have hvalue := h.isWritable_write entry.2
  have hwords : isWord "key" ∧ isWord "value" := by decide
  simp [MapEntry.toValue, Value.isWritable, areWritable, Field.of, Field.isWritable, hvalue,
    hwords]

end Values

namespace Slot

variable {S : Type}

/-- The name is a word, and the codec of the slot is faithful. -/
def Faithful : Slot S → Prop
  | single name codec _ => isWord name ∧ codec.Faithful
  | repeated name _ => isWord name
  | mapped name codec _ _ => isWord name ∧ codec.Faithful

/-- The option is not set in the record. -/
def IsUnset (s : S) : Slot S → Prop
  | single _ _ lens => lens.get s = none
  | repeated _ lens => lens.get s = []
  | mapped _ _ _ lens => lens.get s = {}

/-- A record with the option of another one. -/
def copy (s target : S) : Slot S → S
  | single _ _ lens => lens.set target (lens.get s)
  | repeated _ lens => lens.set target (lens.get s)
  | mapped _ _ _ lens => lens.set target (lens.get s)

theorem addValues_repeated (name : String) (lens : Lens S (List String)) (target : S)
    (texts : List String) :
    (texts.map Value.text).foldlM (fun t v => (repeated name lens).addValue t v.takesColon v)
        target = some (lens.set target (lens.get target ++ texts)) := by
  induction texts generalizing target with
  | nil => simp [lens.set_get]
  | cons text texts ih =>
    have hfirst : (repeated name lens).addValue target true (.text text) =
        some (lens.set target (lens.get target ++ [text])) := rfl
    have hcolon : (Value.text text).takesColon = true := rfl
    rw [List.map_cons, List.foldlM_cons, hcolon, hfirst, Option.bind_eq_bind, Option.bind_some,
      ih, lens.get_set, lens.set_set, List.append_assoc]
    rfl

theorem addValues_mapped {α : Type} (name : String) {codec : Codec α} (h : codec.Faithful)
    (missing : α) (lens : Lens S (KeyMap α)) (target : S) (entries : List (String × α)) :
    (entries.map (MapEntry.toValue codec)).foldlM
        (fun t v => (mapped name codec missing lens).addValue t v.takesColon v) target =
      some (lens.set target ((lens.get target).addAll entries)) := by
  induction entries generalizing target with
  | nil => simp [KeyMap.addAll, lens.set_get]
  | cons e entries ih =>
    have hentry := ofFields?_toValue h missing e
    have hfirst : (mapped name codec missing lens).addValue target false
        (MapEntry.toValue codec e) =
          some (lens.set target ((lens.get target).insert e.1 e.2)) := by
      simp only [MapEntry.toValue, Value.message?, Option.bind_eq_bind, Option.bind_some] at hentry
      simp [addValue, MapEntry.toValue, Value.messages?, Value.message?, hentry, KeyMap.addAll]
    have hcolon : (MapEntry.toValue codec e).takesColon = false := rfl
    rw [List.map_cons, List.foldlM_cons, hcolon, hfirst, Option.bind_eq_bind, Option.bind_some,
      ih, lens.get_set, lens.set_set]
    rfl

/-- Reading the values of an option into a record where it is not set copies it. -/
theorem addValues_values {slot : Slot S} (h : slot.Faithful) {target : S}
    (hunset : slot.IsUnset target) (s : S) :
    (slot.values s).foldlM (fun t v => slot.addValue t v.takesColon v) target =
      some (slot.copy s target) := by
  cases slot with
  | single name codec lens =>
    have hget : lens.get target = none := hunset
    cases hs : lens.get s with
    | none =>
      have hset := lens.set_get target
      rw [hget] at hset
      simp [values, copy, hs, hset]
    | some a =>
      have hread := h.2.read?_write a
      simp [values, copy, addValue, hs, hget, hread, setOnce]
  | repeated name lens =>
    have hget : lens.get target = [] := hunset
    have hvalues := addValues_repeated name lens target (lens.get s)
    rw [hget] at hvalues
    exact hvalues
  | mapped name codec missing lens =>
    have hget : lens.get target = {} := hunset
    have hvalues := addValues_mapped name h.2 missing lens target (lens.get s).entries
    have hentries : KeyMap.addAll {} (lens.get s).entries = lens.get s :=
      (lens.get s).ofList_entries
    rw [hget, hentries] at hvalues
    exact hvalues

/-- Every slot is found by its name. -/
theorem find?_name {slots : List (Slot S)} (hnames : (slots.map name).Nodup) {slot : Slot S}
    (h : slot ∈ slots) : (slots.find? fun other => other.name == slot.name) = some slot := by
  induction slots with
  | nil => cases h
  | cons first rest ih =>
    rw [List.map_cons, List.nodup_cons] at hnames
    rcases List.mem_cons.1 h with rfl | hrest
    · rw [List.find?_cons_of_pos (by simp)]
    · have hne : first.name ≠ slot.name := by
        intro heq
        exact hnames.1 (heq ▸ List.mem_map_of_mem hrest)
      rw [List.find?_cons_of_neg (by simpa using hne)]
      exact ih hnames.2 hrest

/-- Copying the options of the slots one after the other into a record, where none of them is set
yet, gives the first record. -/
def Covers (s : S) : List (Slot S) → S → Prop
  | [], target => target = s
  | slot :: rest, target => slot.IsUnset target ∧ Covers s rest (slot.copy s target)

theorem addFields_append (slots : List (Slot S)) (target : S) (fields more : List Field) :
    addFields slots target (fields ++ more) =
      (addFields slots target fields).bind (addFields slots · more) :=
  List.foldlM_append

/-- Reading what has been written for a record gives the record. -/
theorem addFields_toFields {slots : List (Slot S)} (hnames : (slots.map name).Nodup)
    (hfaithful : ∀ slot ∈ slots, slot.Faithful) {s start : S} (hcovers : Covers s slots start) :
    addFields slots start (toFields slots s) = some s := by
  have hrest : ∀ rest ⊆ slots, ∀ target, Covers s rest target →
      addFields slots target (toFields rest s) = some s := by
    intro rest
    induction rest with
    | nil =>
      rintro _ target rfl
      rfl
    | cons slot rest ih =>
      rintro hsub target ⟨hunset, hcovers⟩
      have hmem := hsub List.mem_cons_self
      have hvalues := addValues_values (hfaithful slot hmem) hunset s
      have hslot : addFields slots target ((slot.values s).map (Field.of slot.name)) =
          some (slot.copy s target) := by
        rw [addFields, List.foldlM_map, ← hvalues]
        congr 1
        funext t v
        rw [addField, Field.of, Field.name, find?_name hnames hmem]
        rfl
      have hnext := ih (fun _ h => hsub (List.mem_cons_of_mem slot h)) _ hcovers
      rw [toFields, List.flatMap_cons, addFields_append, hslot, Option.bind_some]
      exact hnext
  exact hrest slots (List.Subset.refl slots) start hcovers

theorem isWritable_of_mem_values {slot : Slot S} (h : slot.Faithful) {s : S} {value : Value}
    (hvalue : value ∈ slot.values s) : (Field.of slot.name value).isWritable := by
  cases slot with
  | single name codec lens =>
    obtain ⟨a, -, rfl⟩ := Option.map_eq_some_iff.1 (Option.mem_toList.1 hvalue)
    simp [Field.of, Field.isWritable, Slot.name, h.1, h.2.isWritable_write a]
  | repeated name lens =>
    obtain ⟨text, -, rfl⟩ := List.mem_map.1 hvalue
    exact Bool.and_eq_true_iff.2 ⟨h, rfl⟩
  | mapped name codec missing lens =>
    obtain ⟨entry, -, rfl⟩ := List.mem_map.1 hvalue
    exact Bool.and_eq_true_iff.2 ⟨h.1, isWritable_toValue h.2 entry⟩

theorem areWritable_toFields {slots : List (Slot S)} (h : ∀ slot ∈ slots, slot.Faithful) (s : S) :
    areWritable (toFields slots s) := by
  rw [areWritable_iff]
  intro f hf
  obtain ⟨slot, hslot, hf⟩ := List.mem_flatMap.1 hf
  obtain ⟨value, hvalue, rfl⟩ := List.mem_map.1 hf
  exact isWritable_of_mem_values (h slot hslot) hvalue

end Slot

namespace FieldOptions

theorem faithful_slots : ∀ slot ∈ slots, slot.Faithful := by
  simp only [slots, List.forall_mem_cons, List.not_mem_nil, false_imp_iff, implies_true, and_true,
    Slot.Faithful, Codec.faithful_text, Codec.faithful_flag, Codec.faithful_mode]
  decide

theorem nodup_names : (slots.map Slot.name).Nodup := by
  decide

theorem covers_slots (o : FieldOptions) : Slot.Covers o slots {} := by
  simp only [slots, Slot.Covers, Slot.IsUnset, Slot.copy, and_self]

theorem ofFields?_toFields (o : FieldOptions) : ofFields? o.toFields = some o :=
  Slot.addFields_toFields nodup_names faithful_slots o.covers_slots

theorem areWritable_toFields (o : FieldOptions) : areWritable o.toFields :=
  Slot.areWritable_toFields faithful_slots o

/-- Reading options undoes writing them. -/
theorem read?_render (o : FieldOptions) : read? o.render = some o := by
  rw [read?, render, TextFormat.read?_render o.areWritable_toFields]
  exact o.ofFields?_toFields

end FieldOptions

theorem Codec.faithful_fieldOptions : fieldOptions.Faithful where
  read?_write o := o.ofFields?_toFields
  isWritable_write o := o.areWritable_toFields

namespace TypeMap

theorem faithful_slots : ∀ slot ∈ slots, slot.Faithful := by
  simp only [slots, List.forall_mem_cons, List.not_mem_nil, false_imp_iff, implies_true, and_true,
    Slot.Faithful, Codec.faithful_fieldOptions]
  decide

theorem nodup_names : (slots.map Slot.name).Nodup := by
  decide

theorem covers_slots (map : TypeMap) : Slot.Covers map slots {} :=
  ⟨rfl, rfl⟩

theorem ofFields?_toFields (map : TypeMap) : ofFields? map.toFields = some map :=
  Slot.addFields_toFields nodup_names faithful_slots map.covers_slots

theorem areWritable_toFields (map : TypeMap) : areWritable map.toFields :=
  Slot.areWritable_toFields faithful_slots map

@[inherit_doc FieldOptions.read?_render]
theorem read?_render (map : TypeMap) : read? map.render = some map := by
  rw [read?, render, TextFormat.read?_render map.areWritable_toFields]
  exact map.ofFields?_toFields

end TypeMap

namespace MessageOptions

theorem faithful_slots : ∀ slot ∈ slots, slot.Faithful := by
  simp only [slots, List.forall_mem_cons, List.not_mem_nil, false_imp_iff, implies_true, and_true,
    Slot.Faithful, Codec.faithful_text, Codec.faithful_flag, Codec.faithful_fieldOptions]
  decide

theorem nodup_names : (slots.map Slot.name).Nodup := by
  decide

theorem covers_slots (o : MessageOptions) : Slot.Covers o slots {} := by
  simp only [slots, Slot.Covers, Slot.IsUnset, Slot.copy, and_self]

@[inherit_doc FieldOptions.read?_render]
theorem read?_render (o : MessageOptions) : read? o.render = some o := by
  rw [read?, render, toFields, TextFormat.read?_render (Slot.areWritable_toFields faithful_slots o)]
  exact Slot.addFields_toFields nodup_names faithful_slots o.covers_slots

end MessageOptions

/-- What has been written is read, and as what it was: all options of a field, all options of a
message and all type maps, whatever is set in them and whatever their texts are. -/
theorem reading_undoes_writing (o : FieldOptions) (m : MessageOptions) (map : TypeMap) :
    FieldOptions.read? o.render = some o ∧ MessageOptions.read? m.render = some m ∧
      TypeMap.read? map.render = some map :=
  ⟨o.read?_render, m.read?_render, map.read?_render⟩

end FluentGen
