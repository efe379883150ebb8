import FluentGen.KeyMap
import Mathlib.Data.List.Basic

/-!
Listing a map and filling a map from a list. The entries of a map put into an empty one give the
map back, since each of them comes behind the ones before it. A list of entries with a key given
twice loses an entry on the way into a map, which every positive weight of the entries shows.
-/

namespace FluentGen.KeyMap

universe u

variable {α : Type u}

theorem ext_entries {first second : KeyMap α} (h : first.entries = second.entries) :
    first = second := by
  cases first
  cases second
  cases h
  rfl

/-- A key behind all others is put at the end. -/
theorem insertEntry_of_last {entries : List (String × α)} {key : String} (value : α)
    (h : ∀ e ∈ entries, e.1 < key) :
    insertEntry key value entries = entries ++ [(key, value)] := by
  induction entries with
  | nil => rfl
  | cons head rest ih =>
    obtain ⟨k, v⟩ := head
    have hlt : k < key := h (k, v) List.mem_cons_self
    have hne : key ≠ k := (String.ne_of_lt hlt).symm
    have hge : ¬ key < k := fun hlt' => String.lt_irrefl k (String.lt_trans hlt hlt')
    have hrest := ih fun e he => h e (List.mem_cons_of_mem _ he)
    rw [insertEntry, if_neg hge, if_neg hne, hrest]
    rfl

theorem addAll_append (map : KeyMap α) (first second : List (String × α)) :
    map.addAll (first ++ second) = (map.addAll first).addAll second :=
  List.foldl_append

theorem mem_insertEntry {key : String} {value : α} {entries : List (String × α)} {e : String × α}
    (h : e ∈ insertEntry key value entries) : e = (key, value) ∨ e ∈ entries := by
  induction entries with
  | nil => exact Or.inl (List.mem_singleton.1 h)
  | cons head rest ih =>
    rw [insertEntry] at h
    split at h
    · exact List.mem_cons.1 h
    · split at h
      · rcases List.mem_cons.1 h with h | h
        · exact Or.inl h
        · exact Or.inr (List.mem_cons_of_mem head h)
      · rcases List.mem_cons.1 h with rfl | h
        · exact Or.inr List.mem_cons_self
        · exact (ih h).imp_right (List.mem_cons_of_mem head)

/-- The entries of a map are among those that were put into it. -/
theorem mem_addAll {map : KeyMap α} {more : List (String × α)} {e : String × α}
    (h : e ∈ (map.addAll more).entries) : e ∈ map.entries ∨ e ∈ more := by
  induction more generalizing map with
  | nil => exact Or.inl h
  | cons first rest ih =>
    rcases ih h with hmap | hrest
    · rcases mem_insertEntry hmap with rfl | hmap
      · exact Or.inr List.mem_cons_self
      · exact Or.inl hmap
    · exact Or.inr (List.mem_cons_of_mem first hrest)

theorem mem_ofList {entries : List (String × α)} {e : String × α}
    (h : e ∈ (ofList entries).entries) : e ∈ entries := by
  rcases mem_addAll h with hnone | h
  · cases hnone
  · exact h

theorem entries_addAll (map : KeyMap α) (more : List (String × α))
    (h : (map.entries ++ more).Pairwise (fun a b => a.1 < b.1)) :
    (map.addAll more).entries = map.entries ++ more := by
  induction more generalizing map with
  | nil => exact (List.append_nil _).symm
  | cons e more ih =>
    have hlast : ∀ e' ∈ map.entries, e'.1 < e.1 := by
      intro e' he'
      exact (List.pairwise_append.1 h).2.2 e' he' e List.mem_cons_self
    have hentries : (map.insert e.1 e.2).entries = map.entries ++ [e] :=
      insertEntry_of_last e.2 hlast
    have hmore := ih (map.insert e.1 e.2) (by
      rw [hentries, List.append_assoc]
      exact h)
    rw [hentries, List.append_assoc] at hmore
    exact hmore

/-- The map of the entries of a map is that map. -/
theorem ofList_entries (map : KeyMap α) : ofList map.entries = map :=
  ext_entries (entries_addAll empty map.entries map.sorted)

theorem nodup_keys (map : KeyMap α) : (map.entries.map Prod.fst).Nodup := by
  rw [List.Nodup, List.pairwise_map]
  exact map.sorted.imp String.ne_of_lt

/-- In a list with different keys a look-up finds each of the entries. -/
theorem lookup_eq_some_iff_of_nodup {entries : List (String × α)}
    (hkeys : (entries.map Prod.fst).Nodup) {key : String} {value : α} :
    entries.lookup key = some value ↔ (key, value) ∈ entries := by
  induction entries with
  | nil => simp
  | cons head rest ih =>
    obtain ⟨hhead, hrest⟩ := List.nodup_cons.1 hkeys
    rw [List.lookup_cons, List.mem_cons]
    by_cases hkey : key = head.1
    · rw [beq_iff_eq.2 hkey]
      constructor
      · intro hvalue
        exact Or.inl (Prod.ext hkey (Option.some.inj hvalue).symm)
      · rintro (rfl | hmem)
        · rfl
        · exact absurd (List.mem_map.2 ⟨_, hmem, hkey⟩) hhead
    · rw [beq_eq_false_iff_ne.2 hkey, ← ih hrest]
      constructor
      · exact Or.inr
      · rintro (rfl | hmem)
        · exact absurd rfl hkey
        · exact hmem

/-- An entry is in a map exactly if its key has its value there. -/
theorem mem_entries_iff (map : KeyMap α) (e : String × α) :
    e ∈ map.entries ↔ map.get? e.1 = some e.2 :=
  (lookup_eq_some_iff_of_nodup map.nodup_keys).symm

/-- A look-up passes over entries of other keys. -/
theorem get?_addAll_of_notMem {entries : List (String × α)} {key : String}
    (hkey : key ∉ entries.map Prod.fst) (map : KeyMap α) :
    (map.addAll entries).get? key = map.get? key := by
  induction entries generalizing map with
  | nil => rfl
  | cons head rest ih =>
    rw [List.map_cons, List.mem_cons, not_or] at hkey
    have hrest : (map.addAll (head :: rest)).get? key = (map.insert head.1 head.2).get? key :=
      ih hkey.2 _
    rw [hrest, get?_insert, if_neg hkey.1]

/-- An entry stays in a map if no entry behind it has its key. -/
theorem get?_addAll_of_mem {entries : List (String × α)} (hkeys : (entries.map Prod.fst).Nodup)
    {e : String × α} (he : e ∈ entries) (map : KeyMap α) :
    (map.addAll entries).get? e.1 = some e.2 := by
  induction entries generalizing map with
  | nil => cases he
  | cons head rest ih =>
    obtain ⟨hhead, hrest⟩ := List.nodup_cons.1 hkeys
    rcases List.mem_cons.1 he with rfl | he
    · have hkept : (map.addAll (e :: rest)).get? e.1 = (map.insert e.1 e.2).get? e.1 :=
        get?_addAll_of_notMem hhead _
      rw [hkept, get?_insert, if_pos rfl]
    · exact ih hrest he _

/-- A map of entries with different keys holds exactly these entries. -/
theorem get?_ofList_eq_some_iff {entries : List (String × α)}
    (hkeys : (entries.map Prod.fst).Nodup) {key : String} {value : α} :
    (ofList entries).get? key = some value ↔ (key, value) ∈ entries := by
  constructor
  · intro h
    exact mem_ofList ((mem_entries_iff _ (key, value)).2 h)
  · intro h
    exact get?_addAll_of_mem hkeys h empty

/-- Two lists by increasing key are equal if they have the same entries. -/
theorem eq_of_mem_iff {entries others : List (String × α)}
    (h : entries.Pairwise (fun a b => a.1 < b.1)) (h' : others.Pairwise (fun a b => a.1 < b.1))
    (hmem : ∀ e, e ∈ entries ↔ e ∈ others) : entries = others := by
  have hirrefl : ∀ e e' : String × α, e.1 < e'.1 → e ≠ e' := by
    rintro e _ hlt rfl
    exact String.lt_irrefl e.1 hlt
  have hperm : entries.Perm others :=
    (List.perm_ext_iff_of_nodup (h.imp (hirrefl _ _)) (h'.imp (hirrefl _ _))).2 hmem
  refine hperm.eq_of_pairwise ?_ h h'
  intro e e' _ _ hlt hgt
  exact absurd (String.lt_trans hlt hgt) (String.lt_irrefl e.1)

/-- Two maps with the same look-ups are equal. -/
theorem ext_get? {first second : KeyMap α} (h : ∀ key, first.get? key = second.get? key) :
    first = second := by
  apply ext_entries
  apply eq_of_mem_iff first.sorted second.sorted
  intro e
  rw [mem_entries_iff, mem_entries_iff, h]

/-- A look-up passes over the entries of other keys. -/
theorem get?_addAll_filter {first second : KeyMap α} {key : String}
    (h : first.get? key = second.get? key) (entries : List (String × α)) :
    (first.addAll entries).get? key =
      (second.addAll (entries.filter fun e => e.1 = key)).get? key := by
  induction entries generalizing first second with
  | nil => exact h
  | cons e rest ih =>
    by_cases hkey : e.1 = key
    · rw [List.filter_cons_of_pos (by simpa using hkey)]
      apply ih
      rw [get?_insert, get?_insert, if_pos hkey.symm, if_pos hkey.symm]
    · rw [List.filter_cons_of_neg (by simpa using hkey)]
      apply ih
      rw [get?_insert, if_neg (Ne.symm hkey), h]

theorem get?_ofList_congr {entries others : List (String × α)} {key : String}
    (h : (entries.filter fun e => e.1 = key) = others.filter fun e => e.1 = key) :
    (ofList entries).get? key = (ofList others).get? key := by
  rw [ofList, ofList, get?_addAll_filter rfl entries, h, ← get?_addAll_filter rfl others]

/-- A key stays in a map, and one that an entry brings is in it afterwards. -/
theorem isSome_get?_addAll {map : KeyMap α} {entries : List (String × α)} {key : String}
    (h : (map.get? key).isSome ∨ key ∈ entries.map Prod.fst) :
    ((map.addAll entries).get? key).isSome := by
  induction entries generalizing map with
  | nil => exact h.resolve_right List.not_mem_nil
  | cons e rest ih =>
    apply ih
    rw [get?_insert]
    by_cases hkey : key = e.1
    · exact Or.inl (by rw [if_pos hkey]; rfl)
    · rw [if_neg hkey]
      rcases h with hold | hnew
      · exact Or.inl hold
      · exact Or.inr ((List.mem_cons.1 hnew).resolve_left hkey)

section Weight

variable {f : String × α → Nat}

theorem weightOf_nil : weightOf f [] = 0 := rfl

theorem weightOf_cons (e : String × α) (entries : List (String × α)) :
    weightOf f (e :: entries) = f e + weightOf f entries := rfl

theorem weightOf_insertEntry {entries : List (String × α)}
    (h : entries.Pairwise (fun a b => a.1 < b.1)) (key : String) (value : α) :
    weightOf f (insertEntry key value entries) +
        ((entries.lookup key).map fun old => f (key, old)).getD 0 =
      weightOf f entries + f (key, value) := by
  induction entries with
  | nil => simp [insertEntry, weightOf_cons, weightOf_nil]
  | cons head rest ih =>
    obtain ⟨k, v⟩ := head
    obtain ⟨hhead, hrest⟩ := List.pairwise_cons.1 h
    rw [insertEntry]
    split
    · next hlt =>
      have hnone : ((k, v) :: rest).lookup key = none := by
        refine lookup_eq_none_of_lt ?_
        intro e he
        rcases List.mem_cons.1 he with rfl | he
        · exact hlt
        · exact String.lt_trans hlt (hhead e he)
      rw [hnone]
      simp only [weightOf_cons, Option.map_none, Option.getD_none]
      omega
    · split
      · next heq =>
        subst heq
        simp only [weightOf_cons, List.lookup_cons, beq_self_eq_true,
          Option.map_some, Option.getD_some]
        omega
      · next hne =>
        have hrest := ih hrest
        rw [List.lookup_cons, beq_eq_false_iff_ne.2 hne]
        simp only [weightOf_cons]
        omega

/-- An insertion adds the weight of the entry, less that of the entry that it replaces. -/
theorem weight_insert (map : KeyMap α) (key : String) (value : α) :
    (map.insert key value).weight f + ((map.get? key).map fun old => f (key, old)).getD 0 =
      map.weight f + f (key, value) :=
  weightOf_insertEntry map.sorted key value

/-- Keys are new to a map with a further entry exactly if they are new and not the key of it. -/
theorem fresh_insert_iff {map : KeyMap α} {key : String} {value : α}
    {entries : List (String × α)} :
    (∀ e ∈ entries, (map.insert key value).get? e.1 = none) ↔
      key ∉ entries.map Prod.fst ∧ ∀ e ∈ entries, map.get? e.1 = none := by
  constructor
  · intro h
    refine ⟨?_, ?_⟩
    · intro hmem
      obtain ⟨e, he, rfl⟩ := List.mem_map.1 hmem
      have hnone := h e he
      rw [get?_insert, if_pos rfl] at hnone
      cases hnone
    · intro e he
      have hnone := h e he
      rw [get?_insert] at hnone
      split at hnone
      · cases hnone
      · exact hnone
  · rintro ⟨hkey, h⟩ e he
    rw [get?_insert, if_neg]
    · exact h e he
    · intro heq
      exact hkey (List.mem_map.2 ⟨e, he, heq⟩)

/-- A map holds at most the weight of the entries that were put into it, and all of it exactly if
no key was given twice. -/
theorem weight_addAll (hpos : ∀ e, 0 < f e) (map : KeyMap α) (entries : List (String × α)) :
    (map.addAll entries).weight f ≤ map.weight f + weightOf f entries ∧
      ((map.addAll entries).weight f = map.weight f + weightOf f entries ↔
        (entries.map Prod.fst).Nodup ∧ ∀ e ∈ entries, map.get? e.1 = none) := by
  induction entries generalizing map with
  | nil => simp [addAll, weightOf_nil]
  | cons e rest ih =>
    obtain ⟨key, value⟩ := e
    obtain ⟨hle, hiff⟩ := ih (map.insert key value)
    have hinsert := weight_insert map key value (f := f)
    have hstep : map.addAll ((key, value) :: rest) = (map.insert key value).addAll rest := rfl
    rw [hstep, weightOf_cons]
    cases hold : map.get? key with
    | some old =>
      rw [hold, Option.map_some, Option.getD_some] at hinsert
      have hlost := hpos (key, old)
      refine ⟨by omega, ?_⟩
      constructor
      · intro heq
        omega
      · rintro ⟨-, hnew⟩
        rw [hnew (key, value) List.mem_cons_self] at hold
        cases hold
    | none =>
      rw [hold, Option.map_none, Option.getD_none, Nat.add_zero] at hinsert
      rw [hinsert] at hle hiff
      refine ⟨by omega, ?_⟩
      rw [← Nat.add_assoc, hiff, fresh_insert_iff, List.map_cons, List.nodup_cons,
        List.forall_mem_cons]
      constructor
      · rintro ⟨hnodup, hkey, hfresh⟩
        exact ⟨⟨hkey, hnodup⟩, hold, hfresh⟩
      · rintro ⟨⟨hkey, hnodup⟩, -, hfresh⟩
        exact ⟨hnodup, hkey, hfresh⟩

/-- A map of entries has at most as many of them, and all exactly if their keys are different. -/
theorem size_ofList (entries : List (String × α)) :
    (ofList entries).size ≤ entries.length ∧
      ((ofList entries).size = entries.length ↔ (entries.map Prod.fst).Nodup) := by
  obtain ⟨hle, hiff⟩ := weight_addAll (f := fun _ => 1) (fun _ => Nat.one_pos) empty entries
  have hlength : ∀ entries : List (String × α), weightOf (fun _ => 1) entries = entries.length := by
    intro entries
    induction entries with
    | nil => rfl
    | cons e rest ih =>
      rw [weightOf_cons, ih, List.length_cons]
      omega
  have hsize : ∀ map : KeyMap α, map.weight (fun _ => 1) = map.size := fun map => hlength _
  rw [hsize, hsize, hlength] at hle hiff
  have hnone : ∀ e ∈ entries, (empty : KeyMap α).get? e.1 = none := fun _ _ => rfl
  have hempty : (empty : KeyMap α).size = 0 := rfl
  rw [hempty, Nat.zero_add] at hle hiff
  rw [ofList]
  exact ⟨hle, hiff.trans (and_iff_left hnone)⟩

end Weight

end FluentGen.KeyMap
