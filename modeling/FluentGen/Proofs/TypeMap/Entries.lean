import FluentGen.Proofs.Options.Reading
import FluentGen.Proofs.TypeMap.KeyFields

/-!
The keys in the tree of a type map. Every entry of the map, and every entry of the data of an
entry, may spell one key, and there are no other fields with this name in the tree. The tree is calm
because the names of options do not end with the word in front of a key, and neither do truth
values, numbers and the names of output modes.
-/

namespace FluentGen.TypeMap

open TextFormat

/-- The key that an entry gives. -/
def key? (entry : List Field) : Option String :=
  (entry.find? fun f => f.name == "key").bind fun f => f.value.text? f.colon

/-- The key of an entry; a missing one is empty. -/
def keyOf (entry : List Field) : String :=
  (key? entry).getD ""

/-- The fields of a message, and none of any other value. -/
def fieldsIn (value : Value) : List Field :=
  value.message?.getD []

/-- The fields in the value of an entry. -/
def valueOf (entry : List Field) : List Field :=
  ((entry.find? fun f => f.name == "value").map fun f => fieldsIn f.value).getD []

/-- The keys that an entry gives: its own and those in its value. -/
def keysOfEntry (entry : List Field) : List String :=
  (key? entry).toList ++ keysAmong (valueOf entry)

section Atoms

/-- There is no such letter in a number, of whatever base. -/
theorem not_mem_of_addDigits {base : Nat} {start : Bool} {n m : Nat} {chars : List Char}
    (h : Value.addDigits base start n chars = some m) : 'y' ∉ chars := by
  induction chars generalizing start n with
  | nil => simp
  | cons c rest ih =>
    have hhex : Text.hexValue? 'y' = none := by decide
    rw [Value.addDigits] at h
    intro hmem
    rcases List.mem_cons.1 hmem with rfl | hrest
    · rw [if_neg (by decide), hhex] at h
      cases h
    · split at h
      · split at h
        · cases h
        · exact ih h hrest
      · split at h
        · split at h
          · exact ih h hrest
          · cases h
        · cases h

theorem not_mem_of_based? {base n : Nat} {chars : List Char}
    (h : Value.based? base chars = some n) : 'y' ∉ chars := by
  obtain ⟨-, hdigits⟩ := Option.ite_none_left_eq_some.1 h
  have hnot := not_mem_of_addDigits hdigits
  split at hnot
  · next hhead =>
    obtain ⟨-, hhead⟩ := Bool.and_eq_true_iff.1 hhead
    obtain ⟨rest, rfl⟩ := List.head?_eq_some_iff.1 (of_decide_eq_true hhead)
    intro hmem
    exact hnot ((List.mem_cons.1 hmem).resolve_left (by decide))
  · exact hnot

theorem not_mem_of_magnitude? {n : Nat} {chars : List Char}
    (h : Value.magnitude? chars = some n) : 'y' ∉ chars := by
  unfold Value.magnitude? at h
  split at h
  · next mark rest =>
    have hmark : ∀ base, Value.based? base rest = some n → mark ≠ 'y' →
        'y' ∉ '0' :: mark :: rest := by
      intro base hbased hne hmem
      have hrest := (List.mem_cons.1 hmem).resolve_left (by decide)
      exact not_mem_of_based? hbased ((List.mem_cons.1 hrest).resolve_left (Ne.symm hne))
    split at h
    · next hx =>
      refine hmark 16 h ?_
      rintro rfl
      exact absurd hx (by decide)
    · split at h
      · next ho =>
        refine hmark 8 h ?_
        rintro rfl
        exact absurd ho (by decide)
      · split at h
        · next hb =>
          refine hmark 2 h ?_
          rintro rfl
          exact absurd hb (by decide)
        · split at h
          · exact not_mem_of_based? h
          · cases h
  · exact not_mem_of_based? h

theorem not_mem_of_integer? {spelling : String} {n : Int}
    (h : Value.integer? spelling = some n) : 'y' ∉ spelling.toList := by
  intro hmem
  have hplain : 'y' ∈ Number.plainDigits spelling.toList := by
    have hy : Text.decimalValue? 'y' = none := by decide
    exact List.mem_map.2 ⟨'y', hmem, by rw [hy]⟩
  have hsign : ∀ chars, 'y' ∈ chars → 'y' ∈ (Number.splitSign chars).2 := by
    intro chars hchars
    unfold Number.splitSign
    split
    · exact (List.mem_cons.1 hchars).resolve_left (by decide)
    · exact (List.mem_cons.1 hchars).resolve_left (by decide)
    · exact hchars
  obtain ⟨m, hm, -⟩ := Option.map_eq_some_iff.1 h
  exact not_mem_of_magnitude? hm (hsign _ hplain)

/-- The spelling of a truth value does not end with the word in front of a key. -/
theorem not_suffix_of_truth? {spelling : String} {b : Bool}
    (h : Value.truth? spelling = some b) : ¬ keyWord <:+ spelling.toList := by
  have hall : ∀ word ∈ ["true", "t", "1", "True", "false", "f", "0", "False"],
      ¬ keyWord <:+ word.toList := by decide
  unfold Value.truth? at h
  split at h
  · next hmem => exact hall _ (List.mem_append_left _ (List.contains_iff_mem.1 hmem))
  · split at h
    · next hmem =>
      exact hall _ (List.mem_append_right ["true", "t", "1", "True"] (List.contains_iff_mem.1 hmem))
    · cases h

theorem not_suffix_of_ofName? {spelling : String} {mode : OutputMode}
    (h : OutputMode.ofName? spelling = some mode) : ¬ keyWord <:+ spelling.toList := by
  have hname : mode.name = spelling := by simpa using List.find?_some h
  have hall : ∀ mode : OutputMode, ¬ keyWord <:+ mode.name.toList := by
    intro mode
    cases mode <;> decide
  exact hname ▸ hall mode

end Atoms

section Codecs

variable {α : Type}

/-- The values of a codec are calm and hold no keys. -/
def PlainCodec (codec : Codec α) : Prop :=
  ∀ colon value a, codec.read? colon value = some a → CalmValue value ∧ keysIn value = []

/-- The values of a codec may stand in entries: they are calm, no atoms, and hold keys only if they
are messages. -/
def EntryCodec (codec : Codec α) : Prop :=
  ∀ colon value a, codec.read? colon value = some a →
    CalmValue value ∧ isAtom value = false ∧ keysIn value = keysAmong (fieldsIn value)

theorem eq_atom_of_atom? {colon : Bool} {value : Value} {spelling : String}
    (h : value.atom? colon = some spelling) : value = .atom spelling := by
  cases value with
  | atom text =>
    cases colon with
    | true =>
      cases h
      rfl
    | false => cases h
  | text content => cases h
  | message fields => cases h
  | list items => cases h

theorem eq_text_of_text? {colon : Bool} {value : Value} {content : String}
    (h : value.text? colon = some content) : value = .text content := by
  cases value with
  | text text =>
    cases colon with
    | true =>
      cases h
      rfl
    | false => cases h
  | atom spelling => cases h
  | message fields => cases h
  | list items => cases h

theorem plainCodec_text : PlainCodec .text := by
  intro colon value a h
  rw [eq_text_of_text? h]
  exact ⟨trivial, rfl⟩

theorem entryCodec_text : EntryCodec .text := by
  intro colon value a h
  rw [eq_text_of_text? h]
  exact ⟨trivial, rfl, rfl⟩

theorem plainCodec_flag : PlainCodec .flag := by
  intro colon value a h
  obtain ⟨spelling, hatom, htruth⟩ := Option.bind_eq_some_iff.1 h
  rw [eq_atom_of_atom? hatom]
  exact ⟨not_suffix_of_truth? htruth, rfl⟩

theorem plainCodec_mode : PlainCodec .mode := by
  intro colon value a h
  obtain ⟨spelling, hatom, hmode⟩ := Option.bind_eq_some_iff.1 h
  rw [eq_atom_of_atom? hatom]
  refine ⟨?_, rfl⟩
  split at hmode
  · next n hn =>
    intro hends
    exact not_mem_of_integer? hn (hends.subset (by decide))
  · exact not_suffix_of_ofName? hmode

end Codecs

section Values

variable {α : Type} {codec : Codec α} {missing : α}

theorem keyOf_of_shape {entry : List Field} {key : String} {a : α}
    (h : MapEntry.Shape codec missing entry key a) : keyOf entry = key := by
  cases h with
  | empty => rfl
  | key => rfl
  | value _ => rfl
  | keyValue _ => rfl
  | valueKey _ => rfl

/-- Entries are filed under their keys. -/
theorem map_keyOf {messages : List (List Field)} {entries : List (String × α)}
    (h : List.Forall₂ (fun message entry => MapEntry.ofFields? codec missing message = some entry)
      messages entries) : messages.map keyOf = entries.map Prod.fst := by
  induction h with
  | nil => rfl
  | cons hentry _ ih =>
    rw [List.map_cons, List.map_cons, ih, keyOf_of_shape (MapEntry.shape_of_ofFields? hentry)]

/-- An entry is calm, and its keys are the one it gives and those in its value. -/
theorem calm_of_shape (hcodec : EntryCodec codec) {entry : List Field} {key : String} {a : α}
    (h : MapEntry.Shape codec missing entry key a) :
    CalmFields entry ∧ (keysAmong entry).Perm (keysOfEntry entry) := by
  have hends : ¬ keyWord <:+ "value".toList := by decide
  have hname : ∀ colon v, keyOfField (.mk "value" colon v) = [] := by
    intro colon v
    exact if_neg (by decide : "value" ≠ "key")
  cases h with
  | empty => exact ⟨trivial, .nil⟩
  | key => exact ⟨⟨fun _ => rfl, trivial, by simp, trivial⟩, .refl _⟩
  | @value colon v _ hvalue =>
    obtain ⟨hcalm, hatom, hkeys⟩ := hcodec _ _ _ hvalue
    refine ⟨⟨fun h => absurd h hends, hcalm, by simp [hatom], trivial⟩, ?_⟩
    rw [keysAmong, hname, hkeys, keysAmong, List.append_nil]
    exact .refl _
  | @keyValue key colon v _ hvalue =>
    obtain ⟨hcalm, hatom, hkeys⟩ := hcodec _ _ _ hvalue
    refine ⟨⟨fun _ => rfl, trivial, by simp [isAtom], fun h => absurd h hends, hcalm,
      by simp [hatom], trivial⟩, ?_⟩
    rw [keysAmong, keysAmong, hname, hkeys, keysAmong, List.append_nil]
    exact .refl _
  | @valueKey key colon v _ hvalue =>
    obtain ⟨hcalm, hatom, hkeys⟩ := hcodec _ _ _ hvalue
    refine ⟨⟨fun h => absurd h hends, hcalm, by simp [hatom], fun _ => rfl, trivial,
      by simp [isAtom], trivial⟩, ?_⟩
    rw [keysAmong, keysAmong, hname, hkeys, keysAmong, List.append_nil]
    exact List.perm_append_comm

theorem calm_of_texts? {colon : Bool} {value : Value} {texts : List String}
    (h : value.texts? colon = some texts) : CalmValue value ∧ keysIn value = [] := by
  cases value with
  | list items =>
    cases colon with
    | false => cases h
    | true =>
      have hitems : items.mapM (Value.text? true) = some texts := h
      have hall := forall₂_of_mapM hitems
      clear h hitems
      induction hall with
      | nil => exact ⟨trivial, rfl⟩
      | cons hitem _ ih =>
        rw [eq_text_of_text? hitem]
        exact ⟨⟨trivial, ih.1⟩, ih.2⟩
  | text content => exact ⟨trivial, rfl⟩
  | atom spelling => cases h
  | message fields => cases h

theorem calm_of_messages? {value : Value} {messages : List (List Field)}
    (h : value.messages? = some messages)
    (hall : ∀ m ∈ messages, CalmFields m ∧ (keysAmong m).Perm (keysOfEntry m)) :
    CalmValue value ∧ (keysIn value).Perm (messages.flatMap keysOfEntry) := by
  cases value with
  | message fields =>
    cases h
    obtain ⟨hcalm, hkeys⟩ := hall fields List.mem_cons_self
    refine ⟨hcalm, ?_⟩
    simpa [keysIn] using hkeys
  | list items =>
    have hitems : items.mapM Value.message? = some messages := h
    have hrelated := forall₂_of_mapM hitems
    clear h hitems
    induction hrelated with
    | nil => exact ⟨trivial, .nil⟩
    | @cons item m items messages hitem _ ih =>
      obtain ⟨hcalm, hkeys⟩ := hall m List.mem_cons_self
      obtain ⟨hcalms, hmore⟩ := ih fun m' hm' => hall m' (List.mem_cons_of_mem m hm')
      cases item with
      | message fields =>
        cases hitem
        refine ⟨⟨hcalm, hcalms⟩, ?_⟩
        rw [List.flatMap_cons]
        exact hkeys.append hmore
      | atom spelling => cases hitem
      | text content => cases hitem
      | list items => cases hitem
  | atom spelling => cases h
  | text content => cases h

end Values

section Slots

variable {S : Type}

/-- The values of the slot are calm. -/
def PlainSlot : Slot S → Prop
  | .single _ codec _ => PlainCodec codec
  | .repeated _ _ => True
  | .mapped _ codec _ _ => EntryCodec codec

/-- Whether the slot is a map. -/
def isMapped : Slot S → Bool
  | .mapped .. => true
  | _ => false

/-- A value that a slot has taken is calm, and its keys are those of its entries. -/
theorem calm_of_addValue {slot : Slot S} (hslot : PlainSlot slot) {s next : S} {colon : Bool}
    {value : Value} (h : slot.addValue s colon value = some next) :
    CalmValue value ∧ (keysIn value).Perm
      (if isMapped slot then (messagesIn value).flatMap keysOfEntry else []) := by
  cases slot with
  | single name codec lens =>
    simp only [Slot.addValue, Option.bind_eq_bind, Option.bind_eq_some_iff] at h
    obtain ⟨x, hset, -⟩ := h
    unfold setOnce at hset
    split at hset
    · next a _ hread =>
      obtain ⟨hcalm, hkeys⟩ := hslot _ _ _ hread
      exact ⟨hcalm, .of_eq hkeys⟩
    · cases hset
  | repeated name lens =>
    simp only [Slot.addValue, Option.bind_eq_bind, Option.bind_eq_some_iff] at h
    obtain ⟨texts, htexts, -⟩ := h
    obtain ⟨hcalm, hkeys⟩ := calm_of_texts? htexts
    exact ⟨hcalm, .of_eq hkeys⟩
  | mapped name codec missing lens =>
    simp only [Slot.addValue, Option.bind_eq_bind, Option.bind_eq_some_iff] at h
    obtain ⟨messages, hmessages, entries, hentries, -⟩ := h
    have hin : messagesIn value = messages := by rw [messagesIn, hmessages, Option.getD_some]
    rw [hin, isMapped, if_pos rfl]
    refine calm_of_messages? hmessages ?_
    intro m hm
    obtain ⟨entry, hentry⟩ := exists_of_mem_mapM hentries hm
    exact calm_of_shape hslot (MapEntry.shape_of_ofFields? hentry)

/-- Fields that are read as a record with one map are calm, and their keys are those of the entries
of the map. -/
theorem calm_of_addFields {slots : List (Slot S)} (hslots : ∀ slot ∈ slots, PlainSlot slot)
    {name : String} (hmapped : ∀ slot ∈ slots, (isMapped slot = true ↔ slot.name = name))
    (hnames : ∀ slot ∈ slots, ¬ keyWord <:+ slot.name.toList) {fields : List Field} {s last : S}
    (h : Slot.addFields slots s fields = some last) :
    CalmFields fields ∧
      (keysAmong fields).Perm ((messagesOf name fields).flatMap keysOfEntry) := by
  have hall : ∀ f ∈ fields, ¬ keyWord <:+ f.name.toList ∧ CalmValue f.value ∧
      (keysIn f.value).Perm
        ((if f.name = name then messagesIn f.value else []).flatMap keysOfEntry) := by
    intro f hf
    obtain ⟨slot, hslot, hname, before, next, hvalue⟩ := Slot.exists_slot_of_addFields h hf
    obtain ⟨hcalm, hkeys⟩ := calm_of_addValue (hslots slot hslot) hvalue
    refine ⟨hname ▸ hnames slot hslot, hcalm, ?_⟩
    by_cases hmap : isMapped slot
    · rw [if_pos (hname ▸ (hmapped slot hslot).1 hmap)]
      rwa [if_pos hmap] at hkeys
    · rw [if_neg fun heq => hmap ((hmapped slot hslot).2 (hname.trans heq))]
      rwa [if_neg hmap] at hkeys
  have hself : keyWord <:+ "key".toList := by decide
  clear h
  induction fields with
  | nil => exact ⟨trivial, .nil⟩
  | cons f rest ih =>
    obtain ⟨hcalm, hkeys⟩ := ih fun g hg => hall g (List.mem_cons_of_mem f hg)
    obtain ⟨hends, hvalue, hfirst⟩ := hall f List.mem_cons_self
    have hne : ∀ g ∈ rest.head?, g.name ≠ "key" := by
      intro g hg hkey
      refine (hall g (List.mem_cons_of_mem f (List.mem_of_head? hg))).1 ?_
      rw [hkey]
      exact hself
    have hnone : keyOfField f = [] := by
      refine if_neg ?_
      intro hkey
      exact hends (hkey ▸ hself)
    obtain ⟨fieldName, colon, value⟩ := f
    refine ⟨⟨fun h => absurd h hends, hvalue, fun _ => hne, hcalm⟩, ?_⟩
    rw [keysAmong, hnone, List.nil_append, messagesOf, List.flatMap_cons, List.flatMap_append]
    exact hfirst.append hkeys

end Slots

end FluentGen.TypeMap
