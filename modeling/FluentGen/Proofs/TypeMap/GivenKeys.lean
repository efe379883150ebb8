import FluentGen.Proofs.TypeMap.Entries
import FluentGen.TypeMap.Spelling

/-!
What the tree of a type map gives and what the map keeps of it. The keys in the tree are those of
the entries of the map and of the entries of their data. The map holds as many entries as were given
exactly if no map was given a key twice.
-/

namespace FluentGen

open TextFormat (Field Value)

namespace FieldOptions

open TypeMap

theorem plain_slots : ∀ slot ∈ slots, PlainSlot slot := by
  simp only [slots, List.forall_mem_cons, List.not_mem_nil, false_imp_iff, implies_true, and_true,
    PlainSlot, plainCodec_text, plainCodec_flag, plainCodec_mode, entryCodec_text]

theorem isMapped_slots : ∀ slot ∈ slots, (isMapped slot = true ↔ slot.name = "data") := by
  decide

theorem keeps_data : ∀ slot ∈ slots, slot.name ≠ "data" → slot.Keeps data := by
  simp only [slots, List.forall_mem_cons, List.not_mem_nil, false_imp_iff, implies_true, and_true,
    Slot.Keeps]
  simp [Slot.name]

theorem not_suffix_names : ∀ slot ∈ slots, ¬ keyWord <:+ slot.name.toList := by
  decide

/-- The data of options are the entries that their messages are read as. -/
theorem data_of_ofFields? {fields : List Field} {o : FieldOptions}
    (h : ofFields? fields = some o) :
    ∃ entries, List.Forall₂
        (fun message entry => MapEntry.ofFields? .text "" message = some entry)
        (messagesOf "data" fields) entries ∧
      o.data = KeyMap.ofList entries := by
  have hfind : (slots.find? fun slot => slot.name == "data") =
      some (.mapped "data" .text "" (.mk data fun o x => { o with data := x })) := rfl
  exact Slot.get_addFields_mapped hfind keeps_data h

end FieldOptions

namespace TypeMap

/-- The entries of a type map. -/
def entriesOf (fields : List Field) : List (List Field) :=
  messagesOf "type_map" fields

/-- The entries of the data in the value of an entry. -/
def dataOf (entry : List Field) : List (List Field) :=
  messagesOf "data" (valueOf entry)

/-- All entries that the fields of a type map give, those of data included. -/
def givenEntries (fields : List Field) : List (List Field) :=
  (entriesOf fields).flatMap fun entry => entry :: dataOf entry

/-- A map is given a key twice: the type map itself, or the data of one of its entries. -/
def GivenTwice (fields : List Field) (key : String) : Prop :=
  2 ≤ ((entriesOf fields).map keyOf).count key ∨
    ∃ entry ∈ entriesOf fields, 2 ≤ ((dataOf entry).map keyOf).count key

section Entries

/-- An entry of data holds no key but its own. -/
theorem keysOfEntry_data {entry : List Field} {key value : String}
    (h : MapEntry.Shape .text "" entry key value) : keysOfEntry entry = (key? entry).toList := by
  have hvalue : keysAmong (valueOf entry) = [] := by
    cases h with
    | empty => rfl
    | key => rfl
    | value hread =>
      rw [eq_text_of_text? hread]
      rfl
    | keyValue hread =>
      rw [eq_text_of_text? hread]
      rfl
    | valueKey hread =>
      rw [eq_text_of_text? hread]
      rfl
  rw [keysOfEntry, hvalue, List.append_nil]

theorem keysOfEntries_data {messages : List (List Field)} {entries : List (String × String)}
    (h : List.Forall₂ (fun message entry => MapEntry.ofFields? .text "" message = some entry)
      messages entries) :
    messages.flatMap keysOfEntry = messages.filterMap key? := by
  rw [List.filterMap_eq_flatMap_toList]
  induction h with
  | nil => rfl
  | cons hentry _ ih =>
    rw [List.flatMap_cons, List.flatMap_cons, ih,
      keysOfEntry_data (MapEntry.shape_of_ofFields? hentry)]

theorem calm_of_fieldOptions {fields : List Field} {o : FieldOptions}
    (h : FieldOptions.ofFields? fields = some o) :
    CalmFields fields ∧ (keysAmong fields).Perm ((messagesOf "data" fields).filterMap key?) := by
  obtain ⟨hcalm, hkeys⟩ := calm_of_addFields FieldOptions.plain_slots FieldOptions.isMapped_slots
    FieldOptions.not_suffix_names h
  obtain ⟨entries, hentries, -⟩ := FieldOptions.data_of_ofFields? h
  exact ⟨hcalm, hkeys.trans (.of_eq (keysOfEntries_data hentries))⟩

/-- Options hold at most as many data as were given, and all exactly if their keys are
different. -/
theorem size_data {fields : List Field} {o : FieldOptions}
    (h : FieldOptions.ofFields? fields = some o) :
    o.data.size ≤ (messagesOf "data" fields).length ∧
      (o.data.size = (messagesOf "data" fields).length ↔
        ((messagesOf "data" fields).map keyOf).Nodup) := by
  obtain ⟨entries, hentries, hdata⟩ := FieldOptions.data_of_ofFields? h
  rw [hdata, map_keyOf hentries, hentries.length_eq]
  exact KeyMap.size_ofList entries

theorem entryCodec_fieldOptions : EntryCodec .fieldOptions := by
  intro colon value o h
  obtain ⟨fields, hfields, ho⟩ := Option.bind_eq_some_iff.1 h
  cases value with
  | message fields =>
    cases hfields
    exact ⟨(calm_of_fieldOptions ho).1, rfl, rfl⟩
  | atom spelling => cases hfields
  | text content => cases hfields
  | list items => cases hfields

/-- An entry of a type map is filed with the options that its value is read as. -/
theorem ofFields?_valueOf {entry : List Field} {key : String} {o : FieldOptions}
    (h : MapEntry.Shape .fieldOptions {} entry key o) :
    FieldOptions.ofFields? (valueOf entry) = some o := by
  have hmessage : ∀ colon value, Codec.fieldOptions.read? colon value = some o →
      FieldOptions.ofFields? (fieldsIn value) = some o := by
    intro colon value hread
    obtain ⟨fields, hfields, ho⟩ := Option.bind_eq_some_iff.1 hread
    rw [fieldsIn, hfields]
    exact ho
  cases h with
  | empty => rfl
  | key => rfl
  | value hread => exact hmessage _ _ hread
  | keyValue hread => exact hmessage _ _ hread
  | valueKey hread => exact hmessage _ _ hread

/-- The keys that entries of a type map give are their own and those of their data. -/
theorem keysOfEntries_perm {messages : List (List Field)} {entries : List (String × FieldOptions)}
    (h : List.Forall₂ (fun message entry =>
      MapEntry.ofFields? .fieldOptions {} message = some entry) messages entries) :
    (messages.flatMap keysOfEntry).Perm
      ((messages.flatMap fun entry => entry :: dataOf entry).filterMap key?) := by
  induction h with
  | nil => exact .nil
  | @cons entry _ messages _ hentry _ ih =>
    have hvalue := ofFields?_valueOf (MapEntry.shape_of_ofFields? hentry)
    obtain ⟨-, hkeys⟩ := calm_of_fieldOptions hvalue
    have hfirst : (keysOfEntry entry).Perm ((entry :: dataOf entry).filterMap key?) := by
      rw [keysOfEntry, List.filterMap_eq_flatMap_toList, List.flatMap_cons,
        ← List.filterMap_eq_flatMap_toList]
      exact hkeys.append_left (key? entry).toList
    rw [List.flatMap_cons, List.flatMap_cons, List.filterMap_append]
    exact hfirst.append ih

/-- Options hold as many data as were given for them exactly if their keys are different. -/
theorem sum_size_data {messages : List (List Field)} {entries : List (String × FieldOptions)}
    (h : List.Forall₂ (fun message entry =>
      MapEntry.ofFields? .fieldOptions {} message = some entry) messages entries) :
    KeyMap.weightOf (fun e => 1 + e.2.data.size) entries ≤
        (messages.flatMap fun entry => entry :: dataOf entry).length ∧
      (KeyMap.weightOf (fun e => 1 + e.2.data.size) entries =
          (messages.flatMap fun entry => entry :: dataOf entry).length ↔
        ∀ entry ∈ messages, ((dataOf entry).map keyOf).Nodup) := by
  induction h with
  | nil => simp [KeyMap.weightOf_nil]
  | @cons entry e messages entries hentry _ ih =>
    obtain ⟨hle, hiff⟩ := ih
    have hvalue := ofFields?_valueOf (MapEntry.shape_of_ofFields? hentry)
    obtain ⟨hleFirst, hiffFirst⟩ := size_data hvalue
    rw [← dataOf] at hleFirst hiffFirst
    rw [KeyMap.weightOf_cons, List.flatMap_cons, List.length_append, List.length_cons,
      List.forall_mem_cons, ← hiffFirst, ← hiff]
    refine ⟨by omega, ?_⟩
    constructor
    · intro heq
      exact ⟨by omega, by omega⟩
    · rintro ⟨hfirst, hrest⟩
      omega

end Entries

section Whole

variable {fields : List Field} {map : TypeMap}

/-- A type map is made of the entries that its messages are read as. -/
theorem entries_of_ofFields? (h : TypeMap.ofFields? fields = some map) :
    ∃ entries, List.Forall₂
        (fun message entry => MapEntry.ofFields? .fieldOptions {} message = some entry)
        (entriesOf fields) entries ∧
      map = KeyMap.ofList entries := by
  have hfind : (slots.find? fun slot => slot.name == "type_map") =
      some (.mapped "type_map" .fieldOptions {} (.mk id fun _ map => map)) := rfl
  refine Slot.get_addFields_mapped hfind ?_ h
  intro slot hslot hne
  rw [slots, List.mem_singleton] at hslot
  cases hslot
  exact absurd rfl hne

/-- The tree of a type map is calm, and its keys are those that its entries give. -/
theorem calm_of_ofFields? (h : TypeMap.ofFields? fields = some map) :
    CalmFields fields ∧ (keysAmong fields).Perm ((givenEntries fields).filterMap key?) := by
  have hslots : ∀ slot ∈ slots, PlainSlot slot := by
    intro slot hslot
    rw [slots, List.mem_singleton] at hslot
    cases hslot
    exact entryCodec_fieldOptions
  have hmapped : ∀ slot ∈ slots, (isMapped slot = true ↔ slot.name = "type_map") := by decide
  obtain ⟨hcalm, hkeys⟩ := calm_of_addFields hslots hmapped (by decide) h
  obtain ⟨entries, hentries, -⟩ := entries_of_ofFields? h
  exact ⟨hcalm, hkeys.trans (keysOfEntries_perm hentries)⟩

theorem keyCount_eq_weight (map : TypeMap) :
    keyCount map = KeyMap.weight (fun e => 1 + e.2.data.size) map := by
  rw [keyCount, KeyMap.size, KeyMap.weight, KeyMap.weight]
  induction map.entries with
  | nil => rfl
  | cons e rest ih =>
    simp only [List.length_cons, KeyMap.weightOf_cons] at ih ⊢
    omega

theorem entriesOf_sublist (fields : List Field) :
    (entriesOf fields).Sublist (givenEntries fields) := by
  rw [givenEntries]
  induction entriesOf fields with
  | nil => exact .refl _
  | cons entry rest ih =>
    rw [List.flatMap_cons, List.cons_append]
    exact (ih.trans (List.sublist_append_right _ _)).cons_cons entry

theorem dataOf_sublist {entry : List Field} (h : entry ∈ entriesOf fields) :
    (dataOf entry).Sublist (givenEntries fields) := by
  have hself : (dataOf entry).Sublist (entry :: dataOf entry) := List.sublist_cons_self _ _
  rw [givenEntries, List.flatMap_def]
  exact hself.trans (List.sublist_flatten_of_mem (List.mem_map_of_mem h))

/-- A key that a map is given twice is given twice among all entries. -/
theorem GivenTwice.two_le_count {key : String} (h : GivenTwice fields key) :
    2 ≤ ((givenEntries fields).map keyOf).count key := by
  rcases h with hown | ⟨entry, hentry, hdata⟩
  · exact Nat.le_trans hown (((entriesOf_sublist fields).map keyOf).count_le key)
  · exact Nat.le_trans hdata (((dataOf_sublist hentry).map keyOf).count_le key)

/-- A type map holds at most as many entries as were given, those of data included, and all exactly
if no map was given a key twice. -/
theorem keyCount_givenEntries (h : TypeMap.ofFields? fields = some map) :
    keyCount map ≤ (givenEntries fields).length ∧
      (keyCount map = (givenEntries fields).length ↔ ∀ key, ¬ GivenTwice fields key) := by
  obtain ⟨entries, hentries, rfl⟩ := entries_of_ofFields? h
  obtain ⟨hle, hiff⟩ := KeyMap.weight_addAll (f := fun e => 1 + e.2.data.size)
    (fun e => by omega) KeyMap.empty entries
  obtain ⟨hleData, hiffData⟩ := sum_size_data hentries
  have hempty : KeyMap.weight (fun e : String × FieldOptions => 1 + e.2.data.size) .empty = 0 := rfl
  rw [← givenEntries] at hleData hiffData
  rw [hempty, Nat.zero_add] at hle hiff
  rw [keyCount_eq_weight, KeyMap.ofList]
  refine ⟨Nat.le_trans hle hleData, ?_⟩
  have hall : (∀ key, ¬ GivenTwice fields key) ↔
      ((entriesOf fields).map keyOf).Nodup ∧
        ∀ entry ∈ entriesOf fields, ((dataOf entry).map keyOf).Nodup := by
    simp only [List.nodup_iff_count, GivenTwice, not_or, not_exists, not_and, Nat.not_le,
      Nat.lt_succ_iff]
    constructor
    · intro hnot
      exact ⟨fun key => (hnot key).1, fun entry hentry key => (hnot key).2 entry hentry⟩
    · rintro ⟨hown, hdata⟩ key
      exact ⟨hown key, fun entry hentry => hdata entry hentry key⟩
  rw [hall, map_keyOf hentries, ← hiffData]
  have hfresh : ∀ e ∈ entries, (KeyMap.empty : TypeMap).get? e.1 = none := fun _ _ => rfl
  constructor
  · intro heq
    exact ⟨(hiff.1 (by omega)).1, by omega⟩
  · rintro ⟨hnodup, hsum⟩
    have hfull := hiff.2 ⟨hnodup, hfresh⟩
    omega

end Whole

end TypeMap

end FluentGen
