import FluentGen.Proofs.TypeMap.GivenKeys
import FluentGen.TypeMap.Load

/-!
Which type maps are rejected for duplicate keys, and which keys are named then. The check compares
the number of keys that it finds in the text with the number of entries of the map. A key that is
given twice costs the map an entry, so the numbers differ, unless just as many keys are hidden from
the check: an entry may give no key, and a comment may stand inside of the spelling of one.
-/

namespace FluentGen.TypeMap

open TextFormat

section Repeated

theorem get?_counted (keys : List String) (map : KeyMap Nat) (key : String) :
    ((keys.foldl (fun map key => map.insert key ((map.get? key).getD 0 + 1)) map).get?
        key).getD 0 = (map.get? key).getD 0 + keys.count key := by
  induction keys generalizing map with
  | nil => rfl
  | cons first rest ih =>
    rw [List.foldl_cons, ih, KeyMap.get?_insert, List.count_cons]
    by_cases h : key = first
    · subst h
      rw [if_pos rfl, if_pos (beq_self_eq_true key), Option.getD_some]
      omega
    · rw [if_neg h, if_neg (by simpa using Ne.symm h)]
      omega

/-- The repeated keys are those that occur at least twice. -/
theorem mem_repeatedKeys (keys : List String) (key : String) :
    key ∈ repeatedKeys keys ↔ 2 ≤ keys.count key := by
  have hcount := get?_counted keys {} key
  have hempty : (({} : KeyMap Nat).get? key).getD 0 = 0 := rfl
  rw [hempty, Nat.zero_add] at hcount
  rw [repeatedKeys, List.mem_map]
  constructor
  · rintro ⟨e, he, rfl⟩
    obtain ⟨hmem, hmany⟩ := List.mem_filter.1 he
    rw [(KeyMap.mem_entries_iff _ e).1 hmem, Option.getD_some] at hcount
    have hmany := of_decide_eq_true hmany
    omega
  · intro hmany
    generalize keys.foldl _ _ = counted at hcount ⊢
    cases hvalue : counted.get? key with
    | none =>
      rw [hvalue, Option.getD_none] at hcount
      omega
    | some n =>
      rw [hvalue, Option.getD_some] at hcount
      refine ⟨(key, n), List.mem_filter.2 ⟨?_, ?_⟩, rfl⟩
      · exact (KeyMap.mem_entries_iff _ _).2 hvalue
      · exact decide_eq_true (by omega)

/-- The repeated keys are in order, and each is listed once. -/
theorem pairwise_repeatedKeys (keys : List String) : (repeatedKeys keys).Pairwise (· < ·) := by
  rw [repeatedKeys, List.pairwise_map]
  exact (KeyMap.sorted _).filter _

end Repeated

section Numbers

/-- The number of given entries that a map does not hold, because a later one has their key. -/
def lostEntries (fields : List Field) (map : TypeMap) : Nat :=
  (givenEntries fields).length - keyCount map

/-- The number of given entries whose key the check does not find: there is none, or a comment
stands inside of its spelling. -/
def unseenKeys (fields : List Field) (marks : List Marked) : Nat :=
  (givenEntries fields).countP (fun entry => (key? entry).isNone) +
    (keyMarks marks).countP KeyMark.commented

/-- All given entries have a key that is spelled without comments, by a literal that shows it as it
is. -/
def PlainlySpelled (fields : List Field) (marks : List Marked) : Prop :=
  unseenKeys fields marks = 0 ∧
    ∀ key ∈ keyMarks marks, key.text? = some (String.ofList key.spelling)

/-- What the marks of a text, its tree and the check have to do with each other: the marks spell the
keys of the tree, the tree holds those that its entries give, and the check finds the spellings
without comments. -/
structure KeysAgree (text : String) (fields : List Field) (marks : List Marked) : Prop where
  texts : (keyMarks marks).map KeyMark.text? = (keysAmong fields).map some
  given : (keysAmong fields).Perm ((givenEntries fields).filterMap key?)
  spelled : spelledKeys text = (plainSpellings (keyMarks marks)).map String.ofList

variable {text : String} {fields : List Field} {marks : List Marked} {map : TypeMap}

theorem keysAgree_of_read? (h : TypeMap.read? text = some map) :
    ∃ fields marks, TextFormat.read? text = some fields ∧ TypeMap.ofFields? fields = some map ∧
      marks? text = some marks ∧ KeysAgree text fields marks := by
  obtain ⟨fields, hread, hmap⟩ := Option.bind_eq_some_iff.1 h
  obtain ⟨hcalm, hgiven⟩ := calm_of_ofFields? hmap
  obtain ⟨marks, hmarks, htexts, hspelled⟩ := keyMarks_of_read? hread hcalm
  exact ⟨fields, marks, hread, hmap, hmarks, htexts, hgiven, hspelled⟩

/-- The check finds the keys of all given entries but the unseen ones. -/
theorem KeysAgree.length_spelledKeys (h : KeysAgree text fields marks) :
    (spelledKeys text).length + unseenKeys fields marks = (givenEntries fields).length := by
  have hmarks : (keyMarks marks).length = (keysAmong fields).length := by
    simpa using congrArg List.length h.texts
  have hgave : (keysAmong fields).length =
      (givenEntries fields).countP (fun entry => (key? entry).isSome) := by
    rw [h.given.length_eq, List.length_filterMap_eq_countP]
  have hentries : (givenEntries fields).length =
      (givenEntries fields).countP (fun entry => (key? entry).isSome) +
        (givenEntries fields).countP (fun entry => (key? entry).isNone) := by
    rw [List.length_eq_countP_add_countP (fun entry => (key? entry).isSome)]
    refine congrArg _ (List.countP_congr ?_)
    intro entry _
    cases key? entry with
    | none => simp
    | some key => simp
  have hparts := List.length_eq_countP_add_countP KeyMark.commented (l := keyMarks marks)
  have hfound : (spelledKeys text).length =
      (keyMarks marks).countP (fun key => !key.commented) := by
    rw [h.spelled, List.length_map, plainSpellings, List.length_map, List.countP_eq_length_filter]
  simp only [Bool.not_eq_true, Bool.decide_eq_false] at hparts
  rw [unseenKeys]
  omega

/-- Of plainly spelled keys the check finds all, as what they are. -/
theorem KeysAgree.spelledKeys_perm (h : KeysAgree text fields marks)
    (hplain : PlainlySpelled fields marks) :
    (spelledKeys text).Perm ((givenEntries fields).map keyOf) := by
  obtain ⟨hunseen, htexts⟩ := hplain
  obtain ⟨hnone, hcommented⟩ := Nat.add_eq_zero_iff.1 hunseen
  rw [List.countP_eq_zero] at hnone hcommented
  have hall : plainSpellings (keyMarks marks) = (keyMarks marks).map KeyMark.spelling := by
    rw [plainSpellings, List.filter_eq_self.2]
    intro key hkey
    simpa using hcommented key hkey
  have hsame : (keyMarks marks).map KeyMark.text? =
      (((keyMarks marks).map KeyMark.spelling).map String.ofList).map some := by
    rw [List.map_map, List.map_map]
    exact List.map_congr_left htexts
  have hfound : spelledKeys text = keysAmong fields := by
    rw [h.spelled, hall]
    exact (List.map_inj_right fun _ _ => Option.some.inj).1 (hsame.symm.trans h.texts)
  have hgave : (givenEntries fields).filterMap key? = (givenEntries fields).map keyOf := by
    rw [← List.filterMap_eq_map]
    refine List.filterMap_congr ?_
    intro entry hentry
    have hsome := hnone entry hentry
    cases hkey : key? entry with
    | none => simp [hkey] at hsome
    | some key => simp [keyOf, hkey]
  rw [hfound, ← hgave]
  exact h.given

/-- The numbers that the check compares differ by what the map has lost and by what the check does
not see. -/
theorem KeysAgree.ofText_eq (h : KeysAgree text fields marks)
    (hmap : TypeMap.ofFields? fields = some map) (hread : TypeMap.read? text = some map)
    (custom : Bool) :
    ofText custom text =
      if lostEntries fields map = unseenKeys fields marks then .ok map
      else .error (.duplicateKeys (repeatedKeys (spelledKeys text))) := by
  have hsame : (spelledKeys text).length = keyCount map ↔
      lostEntries fields map = unseenKeys fields marks := by
    have hlength := h.length_spelledKeys
    have hle := (keyCount_givenEntries hmap).1
    rw [lostEntries]
    omega
  rw [ofText, hread]
  simp only [hsame]

end Numbers

/-- The answer of the check to a text that is read as a type map, and the keys that it names if it
rejects the text. -/
structure DuplicateCheck (custom : Bool) (text : String) (map : TypeMap) (fields : List Field)
    (marks : List Marked) (named : List String) : Prop where
  answer : ofText custom text =
    if lostEntries fields map = unseenKeys fields marks then .ok map
    else .error (.duplicateKeys named)
  lost_iff : lostEntries fields map ≠ 0 ↔ ∃ key, GivenTwice fields key
  right_iff : ((∃ keys, ofText custom text = .error (.duplicateKeys keys)) ↔
      ∃ key, GivenTwice fields key) ↔
    unseenKeys fields marks = 0 ∨
      (lostEntries fields map ≠ 0 ∧ lostEntries fields map ≠ unseenKeys fields marks)
  sorted : named.Pairwise (· < ·)
  mem_iff : ∀ key, key ∈ named ↔
    2 ≤ ((plainSpellings (keyMarks marks)).map String.ofList).count key
  mem_iff_of_plain : PlainlySpelled fields marks →
    ∀ key, key ∈ named ↔ 2 ≤ ((givenEntries fields).map keyOf).count key
  mem_of_twice : PlainlySpelled fields marks → ∀ key, GivenTwice fields key → key ∈ named

/-- A text is rejected for duplicate keys exactly if its map has lost another number of entries than
there are keys that the check does not see. So no answer is wrong while all keys are seen, and
otherwise it is right exactly if a key is given twice and the numbers differ. The keys that are
named, in order, are the spellings that occur more than once; while all keys are plainly spelled
these are the keys that occur more than once in all maps together, so those that a map is given
twice are among them. -/
theorem duplicateCheck_of_read? (custom : Bool) {text : String} {map : TypeMap}
    (h : TypeMap.read? text = some map) :
    ∃ fields marks named, TextFormat.read? text = some fields ∧ marks? text = some marks ∧
      DuplicateCheck custom text map fields marks named := by
  obtain ⟨fields, marks, hread, hmap, hmarks, hkeys⟩ := keysAgree_of_read? h
  have hanswer := hkeys.ofText_eq hmap h custom
  have hlost : lostEntries fields map ≠ 0 ↔ ∃ key, GivenTwice fields key := by
    obtain ⟨hle, hfull⟩ := keyCount_givenEntries hmap
    have hall : lostEntries fields map = 0 ↔ ∀ key, ¬ GivenTwice fields key := by
      rw [← hfull, lostEntries]
      omega
    rw [ne_eq, hall, not_forall_not]
  have hrejects : (∃ keys, ofText custom text = .error (.duplicateKeys keys)) ↔
      lostEntries fields map ≠ unseenKeys fields marks := by
    rw [hanswer]
    split
    · next heq => simp [heq]
    · next hne => simp [hne]
  refine ⟨fields, marks, _, hread, hmarks, hanswer, hlost, ?_, pairwise_repeatedKeys _, ?_, ?_, ?_⟩
  · rw [hrejects, ← hlost]
    omega
  · intro key
    rw [mem_repeatedKeys, hkeys.spelled]
  · intro hplain key
    rw [mem_repeatedKeys, (hkeys.spelledKeys_perm hplain).count_eq]
  · intro hplain key htwice
    rw [mem_repeatedKeys, (hkeys.spelledKeys_perm hplain).count_eq]
    exact htwice.two_le_count

/-- A type map with a key given twice and a comment inside of the spelling of another one. -/
def commentedKey : String :=
  "type_map < key: # first\n 'a' > type_map < key: 'b' > type_map < key: 'b' >"

/-- A text is accepted although a key is given twice, since a comment hides another key. -/
theorem duplicateCheck_commentedKey :
    ∃ map fields marks named, TypeMap.read? commentedKey = some map ∧
      TextFormat.read? commentedKey = some fields ∧ marks? commentedKey = some marks ∧
      DuplicateCheck false commentedKey map fields marks named ∧
      ofText false commentedKey = .ok map ∧ GivenTwice fields "b" := by
  have hread : TypeMap.read? commentedKey = some (.ofList [("a", {}), ("b", {})]) := by
    decide +kernel
  have haccepted : ofText false commentedKey = .ok (.ofList [("a", {}), ("b", {})]) := by
    decide +kernel
  have htwice : ∀ fields ∈ TextFormat.read? commentedKey,
      2 ≤ ((entriesOf fields).map keyOf).count "b" := by
    decide +kernel
  obtain ⟨fields, marks, named, hfields, hmarks, hcheck⟩ := duplicateCheck_of_read? false hread
  exact ⟨_, fields, marks, named, hread, hfields, hmarks, hcheck, haccepted,
    Or.inl (htwice fields hfields)⟩

end FluentGen.TypeMap
