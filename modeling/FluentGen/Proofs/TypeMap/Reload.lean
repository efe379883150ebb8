import FluentGen.Proofs.Options.RoundTrip
import FluentGen.Proofs.TypeMap.Duplicates
import FluentGen.Proofs.TypeMap.Filing

/-!
A loaded type map can be written and loaded again. In what is written every entry gives its key, no
key is given twice and there are no comments, so the check for duplicate keys accepts it. What has
been loaded has been filed, and what has been filed is accepted and not changed any more.
-/

namespace FluentGen

open TextFormat

namespace Slot

variable {S : Type}

/-- The messages that are written under the name of a slot are those of its values. -/
theorem messagesOf_toFields {slots : List (Slot S)} (hnames : (slots.map Slot.name).Nodup)
    {slot : Slot S} (hslot : slot ∈ slots) (s : S) :
    messagesOf slot.name (toFields slots s) = (slot.values s).flatMap messagesIn := by
  have hself : ∀ other : Slot S,
      messagesOf slot.name ((other.values s).map (Field.of other.name)) =
        if other.name = slot.name then (other.values s).flatMap messagesIn else [] := by
    intro other
    rw [messagesOf, List.flatMap_map]
    by_cases h : other.name = slot.name
    · simp [Field.of, Field.name, Field.value, h]
    · simp [Field.of, Field.name, h]
  have hcons : ∀ (first : Slot S) (rest : List (Slot S)),
      messagesOf slot.name (toFields (first :: rest) s) =
        messagesOf slot.name ((first.values s).map (Field.of first.name)) ++
          messagesOf slot.name (toFields rest s) := by
    intro first rest
    rw [messagesOf, toFields, List.flatMap_cons, List.flatMap_append]
    rfl
  have hother : ∀ rest : List (Slot S), slot.name ∉ rest.map Slot.name →
      messagesOf slot.name (toFields rest s) = [] := by
    intro rest hrest
    induction rest with
    | nil => rfl
    | cons first rest ih =>
      obtain ⟨hfirst, hrest⟩ := not_or.1 (fun h => hrest (List.mem_cons.2 h))
      rw [hcons, hself, if_neg (Ne.symm hfirst), ih hrest]
      rfl
  induction slots with
  | nil => cases hslot
  | cons first rest ih =>
    obtain ⟨hfirst, hrest⟩ := List.nodup_cons.1 hnames
    rw [hcons, hself]
    rcases List.mem_cons.1 hslot with rfl | hslot
    · rw [if_pos rfl, hother rest hfirst, List.append_nil]
    · have hne : first.name ≠ slot.name := by
        intro heq
        exact hfirst (heq ▸ List.mem_map_of_mem hslot)
      rw [if_neg hne, ih hrest hslot, List.nil_append]

end Slot

namespace TypeMap

section Written

/-- The fields of a written entry. -/
def writtenEntry {α : Type} (codec : Codec α) (e : String × α) : List Field :=
  [.of "key" (.text e.1), .of "value" (codec.write e.2)]

theorem flatMap_messagesIn_toValue {α : Type} (codec : Codec α) (entries : List (String × α)) :
    (entries.map (MapEntry.toValue codec)).flatMap messagesIn =
      entries.map (writtenEntry codec) := by
  induction entries with
  | nil => rfl
  | cons e rest ih =>
    rw [List.map_cons, List.flatMap_cons, ih]
    rfl

theorem entriesOf_toFields (map : TypeMap) :
    entriesOf map.toFields = map.entries.map (writtenEntry .fieldOptions) := by
  have hslot : Slot.mapped "type_map" .fieldOptions {} (.mk id fun _ map => map) ∈ slots :=
    List.mem_cons_self
  exact (Slot.messagesOf_toFields nodup_names hslot map).trans
    (flatMap_messagesIn_toValue .fieldOptions map.entries)

theorem dataOf_writtenEntry (e : String × FieldOptions) :
    dataOf (writtenEntry .fieldOptions e) = e.2.data.entries.map (writtenEntry .text) := by
  have hslot : Slot.mapped "data" .text ""
      (.mk FieldOptions.data fun o x => { o with data := x }) ∈ FieldOptions.slots := by
    simp [FieldOptions.slots]
  exact (Slot.messagesOf_toFields FieldOptions.nodup_names hslot e.2).trans
    (flatMap_messagesIn_toValue .text e.2.data.entries)

/-- All entries are written. -/
theorem length_givenEntries_toFields (map : TypeMap) :
    (givenEntries map.toFields).length = keyCount map := by
  rw [givenEntries, entriesOf_toFields, keyCount_eq_weight, KeyMap.weight]
  induction map.entries with
  | nil => rfl
  | cons e rest ih =>
    rw [List.map_cons, List.flatMap_cons, List.length_append, ih, List.length_cons,
      dataOf_writtenEntry, List.length_map, KeyMap.weightOf_cons, KeyMap.size]
    omega

/-- All entries are written with their key. -/
theorem isSome_key?_toFields {map : TypeMap} {entry : List Field}
    (h : entry ∈ givenEntries map.toFields) : (key? entry).isSome := by
  rw [givenEntries, entriesOf_toFields] at h
  obtain ⟨written, hwritten, h⟩ := List.mem_flatMap.1 h
  obtain ⟨e, -, rfl⟩ := List.mem_map.1 hwritten
  rw [dataOf_writtenEntry] at h
  rcases List.mem_cons.1 h with rfl | h
  · rfl
  · obtain ⟨d, -, rfl⟩ := List.mem_map.1 h
    rfl

/-- Without comments no spelling of a key has one inside. -/
theorem not_commented_keyMarks {marks : List Marked} (h : ∀ m ∈ marks, m.commented = false)
    {key : KeyMark} (hkey : key ∈ keyMarks marks) : key.commented = false := by
  induction marks with
  | nil => cases hkey
  | cons m rest ih =>
    rcases List.mem_append.1 hkey with hfirst | hrest
    · rw [Option.mem_toList] at hfirst
      unfold keyAtMarks? at hfirst
      split at hfirst
      · next colonCommented c literalCommented inside more heq =>
        cases heq
        obtain ⟨-, hfirst⟩ := Option.ite_none_right_eq_some.1 hfirst
        cases hfirst
        have hcolon : colonCommented = false := h ⟨_, .symbol c⟩ (by simp)
        have hliteral : literalCommented = false := h ⟨_, .literal inside⟩ (by simp)
        rw [hcolon, hliteral]
        rfl
      · cases hfirst
    · exact ih (fun m hm => h m (List.mem_cons_of_mem _ hm)) hrest

/-- The check for duplicate keys accepts what is written for a type map. -/
theorem ofText_render (custom : Bool) (map : TypeMap) : ofText custom map.render = .ok map := by
  have hread : TypeMap.read? map.render = some map := read?_render map
  obtain ⟨fields, marks, hfields, hmap, hmarks, hkeys⟩ := keysAgree_of_read? hread
  have htree : fields = map.toFields := by
    rw [render, TextFormat.read?_render map.areWritable_toFields] at hfields
    exact (Option.some.inj hfields).symm
  have htokens : marks = (tokensOf map.toFields).map (⟨false, ·⟩) := by
    rw [render, marks?_render map.areWritable_toFields] at hmarks
    exact (Option.some.inj hmarks).symm
  subst htree htokens
  have hlost : lostEntries map.toFields map = 0 := by
    rw [lostEntries, length_givenEntries_toFields, Nat.sub_self]
  have hunseen : unseenKeys map.toFields ((tokensOf map.toFields).map (⟨false, ·⟩)) = 0 := by
    rw [unseenKeys, Nat.add_eq_zero_iff, List.countP_eq_zero, List.countP_eq_zero]
    constructor
    · intro entry hentry
      rw [Bool.not_eq_true, ← Option.not_isSome, isSome_key?_toFields hentry]
      rfl
    · intro key hkey
      rw [not_commented_keyMarks (by simp) hkey]
      simp
  rw [hkeys.ofText_eq hmap hread, if_pos (hlost.trans hunseen.symm)]

end Written

/-- A type map that has been loaded, with whatever custom text, is loaded again from what is written
for it. -/
theorem load_render {text : String} {custom : Option String} {map : TypeMap}
    (h : load text custom = .ok map) : load map.render = .ok map := by
  obtain ⟨merged, hverify, rfl⟩ := exists_of_load h
  have hagain : accept (file merged) = .ok (file merged) := by
    rw [accept, verifyEntries_file hverify, file_file]
    rfl
  rw [load, ofText_render]
  exact hagain

/-- An automatic entry, refiled under the name of its type, is loaded again as it has been filed. -/
theorem load_render_automatic :
    ∃ map, load "type_map < key: '=a.B' value < type: 'C' automatic: true > >" = .ok map ∧
      map.get? "=::a::B" = some { type := "C", automatic := true, recurse := false } ∧
      load map.render = .ok map := by
  have hload : load "type_map < key: '=a.B' value < type: 'C' automatic: true > >" =
      .ok (.ofList [("=::a::B", { type := "C", automatic := true, recurse := false })]) := by
    decide +kernel
  exact ⟨_, hload, by decide +kernel, load_render hload⟩

end TypeMap

end FluentGen
