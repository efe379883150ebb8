import FluentGen.Proofs.KeyMap
import FluentGen.Proofs.TypeMap.Filing
import FluentGen.TypeMap.Lookup
import Mathlib.Data.List.Nodup

/-!
The table of expansions. An expansion is found under a name, which is its key with one of five ends
behind it. The ends begin with characters that no key has behind its sigil, so a name tells its key,
and the entries of a type map write to different places of the table.
-/

namespace FluentGen.TypeMap

section Names

/-- What the names of the expansions of a key have behind the key. -/
def expansionEnds : List String := ["", "%param", "+param", "%value", "+param=value"]

/-- Whether a character behind a sigil still belongs to the key. The ends of names begin with the
others. -/
def goesOn (c : Char) : Bool := c ≠ '%' && c ≠ '+'

/-- Whether a key has nothing behind its sigil that could begin an end. -/
def isPlainKey (key : String) : Bool :=
  match key.toList with
  | [] => false
  | _ :: rest => rest.all goesOn

/-- The key that a name begins with. -/
def keyOfName (name : String) : String :=
  String.ofList (name.toList.take 1 ++ name.toList.tail.takeWhile goesOn)

theorem keyOfName_append {key : String} (hkey : isPlainKey key = true) {ending : String}
    (hending : ending ∈ expansionEnds) : keyOfName (key ++ ending) = key := by
  have hstop : ∀ ending ∈ expansionEnds, ending.toList.takeWhile goesOn = [] := by decide
  unfold isPlainKey at hkey
  split at hkey
  · cases hkey
  · next c rest hlist =>
    have htail : (rest ++ ending.toList).takeWhile goesOn = rest := by
      rw [List.takeWhile_append_of_pos (List.all_eq_true.1 hkey), hstop ending hending,
        List.append_nil]
    rw [keyOfName, String.toList_append, hlist, List.cons_append, List.tail_cons, htail,
      List.take_succ_cons, List.take_zero, List.singleton_append, ← hlist, String.ofList_toList]

/-- A name begins with the sigil of its key. -/
theorem hasSigil_append {sigil : Char} {key ending : String} (hkey : isPlainKey key = true) :
    hasSigil sigil (key ++ ending) = hasSigil sigil key := by
  unfold isPlainKey at hkey
  split at hkey
  · cases hkey
  · next c rest hlist => simp [hasSigil, hlist]

end Names

section Keys

theorem goesOn_of_isWordChar {c : Char} (h : Text.isWordChar c = true) : goesOn c = true := by
  have hpercent : Text.isWordChar '%' = false := by decide
  have hplus : Text.isWordChar '+' = false := by decide
  rw [goesOn, Bool.and_eq_true, decide_eq_true_eq, decide_eq_true_eq]
  constructor
  · rintro rfl
    exact absurd h (by simp [hpercent])
  · rintro rfl
    exact absurd h (by simp [hplus])

theorem isPlainKey_of_isCustomKey {key : String} (h : isCustomKey key = true) :
    isPlainKey key = true := by
  unfold isCustomKey at h
  split at h
  · next s c rest hlist =>
    rw [Bool.and_eq_true, Bool.and_eq_true] at h
    obtain ⟨⟨-, hc⟩, hrest⟩ := h
    have hword : Text.isWordChar c = true := by simp [Text.isWordChar, Char.isAlphanum, hc]
    rw [isPlainKey, hlist]
    refine List.all_eq_true.2 ?_
    intro d hd
    rcases List.mem_cons.1 hd with rfl | hd
    · exact goesOn_of_isWordChar hword
    · exact goesOn_of_isWordChar (List.all_eq_true.1 hrest d hd)
  · cases h

/-- A key that is expanded and keeps the rules is one of the listed ones or has the form of custom
keys; both have only letters, digits and underscores behind the sigil. -/
theorem isPlainKey_of_keepsRules {key : String} {o : FieldOptions} (h : brokenRule? key o = none)
    (hexpanded : isExpanded key = true) : isPlainKey key = true := by
  have hlisted : ∀ key ∈ builtinKeys, hasSigil specialSigil key = true → isPlainKey key = true := by
    decide
  rcases Bool.or_eq_true_iff.1 hexpanded with hspecial | hcustom
  · have hreserved : isReservedKey key = true := by rw [isReservedKey, hspecial, Bool.or_true]
    exact hlisted key (mem_builtinKeys_of_keepsRules h hreserved) hspecial
  · exact isPlainKey_of_isCustomKey (isCustomKey_of_keepsRules h hcustom)

end Keys

section Table

variable {map : TypeMap} {key name text : String} {o : FieldOptions}

theorem names_expansionsOf_sublist (key : String) (o : FieldOptions) :
    ((expansionsOf key o).map Prod.fst).Sublist (expansionEnds.map (key ++ ·)) := by
  have hself : key ++ "" = key := String.append_empty
  simp only [expansionsOf, expansionEnds, List.map_append, List.map_cons, List.map_nil, hself]
  cases (Name.snakeCase (if (textOf o.param).isEmpty then Text.tail key else textOf o.param)).isEmpty
  all_goals
    cases (textOf o.value).isEmpty
    all_goals simp

theorem nodup_names_expansionsOf (key : String) (o : FieldOptions) :
    ((expansionsOf key o).map Prod.fst).Nodup := by
  have hends : expansionEnds.Nodup := by decide
  refine (hends.map ?_).sublist (names_expansionsOf_sublist key o)
  intro ending other h
  exact (String.append_right_inj key).1 h

theorem keyOfName_of_mem (hkey : isPlainKey key = true)
    (h : name ∈ (expansionsOf key o).map Prod.fst) : keyOfName name = key := by
  obtain ⟨ending, hending, rfl⟩ := List.mem_map.1 ((names_expansionsOf_sublist key o).subset h)
  exact keyOfName_append hkey hending

/-- If the entries of a type map keep the rules, its table holds the expansions of each of them:
no two are written under one name. -/
theorem get?_expansions_eq_some_iff (hrules : KeepsRules map) :
    (expansions map).get? name = some text ↔
      ∃ e ∈ map.entries, isExpanded e.1 = true ∧ (name, text) ∈ expansionsOf e.1 e.2 := by
  have hplain : ∀ e ∈ specialTypes map, isPlainKey e.1 = true := by
    intro e he
    obtain ⟨hmem, hexpanded⟩ := List.mem_filter.1 he
    exact isPlainKey_of_keepsRules (hrules e hmem) hexpanded
  have hkeys : ((specialTypes map).map Prod.fst).Nodup :=
    map.nodup_keys.sublist (List.filter_sublist.map Prod.fst)
  have hnames :
      (((specialTypes map).flatMap fun e => expansionsOf e.1 e.2).map Prod.fst).Nodup := by
    rw [List.map_flatMap, List.nodup_flatMap]
    refine ⟨fun e _ => nodup_names_expansionsOf e.1 e.2, ?_⟩
    refine (List.pairwise_map.1 hkeys).imp_of_mem ?_
    intro e e' he he' hne name hname hname'
    have hkey := keyOfName_of_mem (hplain e he) hname
    have hkey' := keyOfName_of_mem (hplain e' he') hname'
    exact hne (hkey.symm.trans hkey')
  rw [expansions, KeyMap.get?_ofList_eq_some_iff hnames, List.mem_flatMap]
  simp only [specialTypes, List.mem_filter, and_assoc]

/-- Under the names of a key the table holds what the options of that key expand to. -/
theorem get?_expansions_append (hrules : KeepsRules map) (hkey : map.get? key = some o)
    (hexpanded : isExpanded key = true) {ending : String} (hending : ending ∈ expansionEnds) :
    (expansions map).get? (key ++ ending) = (expansionsOf key o).lookup (key ++ ending) := by
  have hmem : (key, o) ∈ map.entries := (map.mem_entries_iff (key, o)).2 hkey
  have hplain := isPlainKey_of_keepsRules (hrules (key, o) hmem) hexpanded
  refine Option.ext fun text => ?_
  rw [get?_expansions_eq_some_iff hrules,
    KeyMap.lookup_eq_some_iff_of_nodup (nodup_names_expansionsOf key o)]
  constructor
  · rintro ⟨⟨key', o'⟩, hmem', hexpanded', htext⟩
    have hplain' := isPlainKey_of_keepsRules (hrules (key', o') hmem') hexpanded'
    have hname := keyOfName_of_mem hplain' (List.mem_map.2 ⟨_, htext, rfl⟩)
    have hsame : key' = key := hname.symm.trans (keyOfName_append hplain hending)
    subst hsame
    have ho : some o' = some o := ((map.mem_entries_iff _).1 hmem').symm.trans hkey
    rw [← Option.some.inj ho]
    exact htext
  · intro htext
    exact ⟨(key, o), hmem, hexpanded, htext⟩

theorem hasSigil_of_mem {sigil : Char} (hkey : isPlainKey key = true)
    (h : name ∈ (expansionsOf key o).map Prod.fst) : hasSigil sigil name = hasSigil sigil key := by
  obtain ⟨ending, -, rfl⟩ := List.mem_map.1 ((names_expansionsOf_sublist key o).subset h)
  exact hasSigil_append hkey

/-- The expansions under names with one sigil depend only on the entries with that sigil. -/
theorem get?_expansions_congr {other : TypeMap} {sigil : Char}
    (hrules : KeepsRules map) (hrules' : KeepsRules other)
    (hsame : ∀ key, hasSigil sigil key = true → map.get? key = other.get? key)
    (hname : hasSigil sigil name = true) :
    (expansions map).get? name = (expansions other).get? name := by
  refine Option.ext fun text => ?_
  rw [get?_expansions_eq_some_iff hrules, get?_expansions_eq_some_iff hrules']
  refine exists_congr fun e => ?_
  -- an entry that writes to the name has its sigil, so it is in both maps or in none
  have hboth : isExpanded e.1 = true → (name, text) ∈ expansionsOf e.1 e.2 →
      brokenRule? e.1 e.2 = none → (e ∈ map.entries ↔ e ∈ other.entries) := by
    intro hexpanded htext hkept
    have hplain := isPlainKey_of_keepsRules hkept hexpanded
    have hsigil : hasSigil sigil e.1 = true := by
      rw [← hasSigil_of_mem hplain (List.mem_map.2 ⟨_, htext, rfl⟩)]
      exact hname
    rw [KeyMap.mem_entries_iff, KeyMap.mem_entries_iff, hsame e.1 hsigil]
  constructor
  · rintro ⟨hmem, hexpanded, htext⟩
    exact ⟨(hboth hexpanded htext (hrules e hmem)).1 hmem, hexpanded, htext⟩
  · rintro ⟨hmem, hexpanded, htext⟩
    exact ⟨(hboth hexpanded htext (hrules' e hmem)).2 hmem, hexpanded, htext⟩

end Table

end FluentGen.TypeMap
