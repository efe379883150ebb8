import FluentGen.Proofs.Except
import FluentGen.Proofs.KeyMap
import FluentGen.Proofs.Name.TypeName
import FluentGen.TypeMap.Load

/-!
Filing the entries of a type map. Only the key of an automatic entry and its `recurse` change. The
new key still has the sigil of automatic types, the only thing that the rules look at in such a key,
so a filed entry keeps the rules, and filing it again changes nothing.
-/

namespace FluentGen

namespace TypeMap

section Rules

/-- All entries of a type map keep the rules. -/
def KeepsRules (map : TypeMap) : Prop :=
  ∀ e ∈ map.entries, brokenRule? e.1 e.2 = none

theorem brokenRule?_eq_none_iff {key : String} {o : FieldOptions} :
    brokenRule? key o = none ↔ ∀ check ∈ checks key o, check.2 = true := by
  simp [brokenRule?]

theorem mem_builtinKeys_of_keepsRules {key : String} {o : FieldOptions}
    (h : brokenRule? key o = none) (hkey : isReservedKey key = true) : key ∈ builtinKeys := by
  have hrule := brokenRule?_eq_none_iff.1 h
    (.reservedKey, !isReservedKey key || builtinKeys.contains key) (by simp [checks])
  simpa [hkey] using hrule

theorem isCustomKey_of_keepsRules {key : String} {o : FieldOptions}
    (h : brokenRule? key o = none) (hkey : hasSigil customSigil key = true) :
    isCustomKey key = true := by
  have hrule := brokenRule?_eq_none_iff.1 h
    (.customKey, !hasSigil customSigil key || isCustomKey key) (by simp [checks])
  simpa [hkey] using hrule

/-- Entries are accepted exactly if none of them breaks a rule. -/
theorem verifyEntries_eq_ok_iff {entries : List (String × FieldOptions)} :
    verifyEntries entries = .ok () ↔ ∀ e ∈ entries, brokenRule? e.1 e.2 = none := by
  induction entries with
  | nil => simp [verifyEntries]
  | cons e rest ih =>
    obtain ⟨key, o⟩ := e
    rw [List.forall_mem_cons, ← ih, verifyEntries, verifyEntry]
    cases brokenRule? key o with
    | none =>
      constructor
      · intro h
        exact ⟨rfl, h⟩
      · rintro ⟨-, h⟩
        exact h
    | some rule =>
      constructor
      · intro h
        cases h
      · rintro ⟨h, -⟩
        cases h

/-- The rules for options do not look at whether they recurse. -/
theorem checks_filedOptions (key : String) (o : FieldOptions) :
    checks key (filedOptions o) = checks key o := by
  unfold filedOptions
  split
  · rfl
  · rfl

theorem hasSigil_iff {sigil : Char} {key : String} :
    hasSigil sigil key = true ↔ key.toList.head? = some sigil := by
  simp [hasSigil]

/-- The rules treat all keys of automatic types alike. -/
theorem checks_of_automatic {key other : String} (hkey : hasSigil automaticSigil key)
    (hother : hasSigil automaticSigil other) (o : FieldOptions) :
    checks key o = checks other o := by
  have hlike : ∀ key, hasSigil automaticSigil key = true →
      isReservedKey key = false ∧ hasSigil customSigil key = false ∧ key.isEmpty = false := by
    intro key h
    rw [hasSigil_iff] at h
    refine ⟨?_, ?_, ?_⟩
    · simp only [isReservedKey, hasSigil, h]
      decide
    · simp only [hasSigil, h]
      decide
    · rw [String.isEmpty_eq_false_iff]
      rintro rfl
      cases h
  obtain ⟨hreserved, hcustom, hempty⟩ := hlike key hkey
  obtain ⟨hreserved', hcustom', hempty'⟩ := hlike other hother
  simp only [checks, hkey, hother, hreserved, hcustom, hempty, hreserved', hcustom', hempty',
    Bool.not_false, Bool.true_or]

end Rules

section Filed

/-- An automatic entry that keeps the rules has a key with the sigil of automatic types. -/
theorem hasSigil_of_automatic {key : String} {o : FieldOptions}
    (h : brokenRule? key o = none) (hauto : o.automatic.getD false = true) :
    hasSigil automaticSigil key = true := by
  have hrule := brokenRule?_eq_none_iff.1 h
    (.automaticKey, !o.automatic.getD false || hasSigil automaticSigil key) (by simp [checks])
  simpa [hauto] using hrule

theorem automatic_filedOptions (o : FieldOptions) : (filedOptions o).automatic = o.automatic := by
  unfold filedOptions
  split
  · rfl
  · rfl

theorem hasSigil_filedKey {key : String} {o : FieldOptions} (h : o.automatic.getD false = true) :
    hasSigil automaticSigil (filedKey key o) = true := by
  rw [filedKey, if_pos h, hasSigil_iff, String.toList_append, String.toList_singleton]
  rfl

/-- An entry that keeps the rules keeps them after it has been filed. -/
theorem brokenRule?_filedEntry {e : String × FieldOptions} (h : brokenRule? e.1 e.2 = none) :
    brokenRule? (filedEntry e).1 (filedEntry e).2 = none := by
  rw [brokenRule?_eq_none_iff] at h ⊢
  rw [filedEntry, checks_filedOptions]
  cases hauto : e.2.automatic.getD false with
  | false =>
    rw [filedKey, if_neg (by simp [hauto])]
    exact h
  | true =>
    have hkey := hasSigil_of_automatic (brokenRule?_eq_none_iff.2 h) hauto
    rw [checks_of_automatic (hasSigil_filedKey hauto) hkey]
    exact h

/-- Filing an entry twice is filing it once. -/
theorem filedEntry_filedEntry (e : String × FieldOptions) :
    filedEntry (filedEntry e) = filedEntry e := by
  have hkey : filedKey (filedKey e.1 e.2) (filedOptions e.2) = filedKey e.1 e.2 := by
    rw [filedKey, automatic_filedOptions]
    split
    · next hauto =>
      rw [filedKey, if_pos hauto, Text.tail, String.toList_append, String.toList_singleton,
        List.cons_append, List.nil_append, List.tail_cons, String.ofList_toList,
        Name.absolute_absolute]
    · rfl
  have hoptions : filedOptions (filedOptions e.2) = filedOptions e.2 := by
    rw [filedOptions, automatic_filedOptions]
    split
    · next hunset =>
      obtain ⟨hauto, hnone⟩ := Bool.and_eq_true_iff.1 hunset
      unfold filedOptions at hnone
      split at hnone
      · cases hnone
      · next hset => exact absurd (Bool.and_eq_true_iff.2 ⟨hauto, hnone⟩) hset
    · rfl
  exact Prod.ext hkey hoptions

/-- The entries of a filed map are filed entries. -/
theorem exists_of_mem_file {map : TypeMap} {e : String × FieldOptions}
    (h : e ∈ (file map).entries) : ∃ original ∈ map.entries, filedEntry original = e :=
  List.mem_map.1 (KeyMap.mem_ofList h)

/-- Filing a map twice is filing it once. -/
theorem file_file (map : TypeMap) : file (file map) = file map := by
  have hself : (file map).entries.map filedEntry = (file map).entries := by
    refine (List.map_congr_left ?_).trans (List.map_id _)
    intro e he
    obtain ⟨original, -, rfl⟩ := exists_of_mem_file he
    exact filedEntry_filedEntry original
  rw [file, hself, KeyMap.ofList_entries]

/-- If the entries of a map keep the rules, those of the filed map do. -/
theorem verifyEntries_file {map : TypeMap} (h : verifyEntries map.entries = .ok ()) :
    verifyEntries (file map).entries = .ok () := by
  rw [verifyEntries_eq_ok_iff] at h ⊢
  intro e he
  obtain ⟨original, horiginal, rfl⟩ := exists_of_mem_file he
  exact brokenRule?_filedEntry (h original horiginal)

/-- What is loaded is a filed map of entries that keep the rules. -/
theorem exists_of_load {text : String} {custom : Option String} {map : TypeMap}
    (h : load text custom = .ok map) :
    ∃ merged, verifyEntries merged.entries = .ok () ∧ file merged = map := by
  have haccept : ∀ merged, accept merged = .ok map →
      verifyEntries merged.entries = .ok () ∧ file merged = map := by
    intro merged hmerged
    obtain ⟨⟨⟩, hverify, hfile⟩ := exists_of_bind_eq_ok hmerged
    exact ⟨hverify, Except.ok.inj hfile⟩
  obtain ⟨first, -, hwith⟩ := exists_of_bind_eq_ok h
  cases custom with
  | none => exact ⟨first, haccept first hwith⟩
  | some more =>
    obtain ⟨second, -, hmerged⟩ := exists_of_bind_eq_ok hwith
    exact ⟨first.union second, haccept _ hmerged⟩

end Filed

end TypeMap

end FluentGen
