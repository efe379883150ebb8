/-!
Finite maps from names to values, kept in the order of their keys. The order is that of the code
points, and it belongs to the type, so two maps with the same entries are equal and a map is
always listed in one way.

`get?_insert` says what an insertion does to every look-up, and `get?_union` what a union does.
-/

universe u v

namespace FluentGen

/-- A finite map; its entries are listed by strictly increasing key. -/
structure KeyMap (α : Type u) where
  entries : List (String × α)
  sorted : entries.Pairwise (fun a b => a.1 < b.1) := by exact List.Pairwise.nil
  deriving DecidableEq

namespace KeyMap

variable {α : Type u} {β : Type v}

instance [Repr α] : Repr (KeyMap α) where
  reprPrec map n := reprPrec map.entries n

/-- The map without entries. -/
def empty : KeyMap α := { entries := [] }

instance : Inhabited (KeyMap α) := ⟨empty⟩
instance : EmptyCollection (KeyMap α) := ⟨empty⟩

/-- Puts an entry into a list by increasing key; an entry of the same key is replaced. -/
def insertEntry (key : String) (value : α) : List (String × α) → List (String × α)
  | [] => [(key, value)]
  | (k, v) :: rest =>
    if key < k then (key, value) :: (k, v) :: rest
    else if key = k then (key, value) :: rest
    else (k, v) :: insertEntry key value rest

/-- The keys after an insertion are the old ones and the new one. -/
theorem fst_of_mem_insertEntry {key : String} {value : α} {entries : List (String × α)}
    {e : String × α} (h : e ∈ insertEntry key value entries) :
    e.1 = key ∨ ∃ e' ∈ entries, e'.1 = e.1 := by
  induction entries with
  | nil => simp_all [insertEntry]
  | cons head rest ih =>
    obtain ⟨k, v⟩ := head
    unfold insertEntry at h
    split at h
    · grind
    · split at h
      · grind
      · grind

theorem pairwise_insertEntry {key : String} {value : α} {entries : List (String × α)}
    (h : entries.Pairwise (fun a b => a.1 < b.1)) :
    (insertEntry key value entries).Pairwise (fun a b => a.1 < b.1) := by
  induction entries with
  | nil => simp [insertEntry]
  | cons head rest ih =>
    obtain ⟨k, v⟩ := head
    obtain ⟨hhead, hrest⟩ := List.pairwise_cons.1 h
    unfold insertEntry
    split
    · rename_i hlt
      refine List.pairwise_cons.2 ⟨?_, h⟩
      intro e he
      rcases List.mem_cons.1 he with rfl | he
      · exact hlt
      · exact String.lt_trans hlt (hhead e he)
    · split
      · rename_i heq
        subst heq
        exact List.pairwise_cons.2 ⟨hhead, hrest⟩
      · rename_i hge hne
        have hgt : k < key := Std.lt_of_le_of_ne hge (Ne.symm hne)
        refine List.pairwise_cons.2 ⟨?_, ih hrest⟩
        intro e he
        rcases fst_of_mem_insertEntry he with hk | ⟨e', he', hk⟩
        · exact hk ▸ hgt
        · exact hk ▸ hhead e' he'

/-- The map with an entry added, or replaced if the key has one. -/
def insert (map : KeyMap α) (key : String) (value : α) : KeyMap α :=
  ⟨insertEntry key value map.entries, pairwise_insertEntry map.sorted⟩

/-- The value of a key. -/
def get? (map : KeyMap α) (key : String) : Option α :=
  map.entries.lookup key

/-- Whether a key has a value. -/
def contains (map : KeyMap α) (key : String) : Bool :=
  (map.get? key).isSome

/-- The number of entries. -/
def size (map : KeyMap α) : Nat :=
  map.entries.length

/-- Whether there is no entry. -/
def isEmpty (map : KeyMap α) : Bool :=
  map.entries.isEmpty

/-- The sum of a weight of entries. -/
def weightOf (f : String × α → Nat) (entries : List (String × α)) : Nat :=
  entries.foldr (fun e n => f e + n) 0

/-- The sum of a weight of all entries. -/
def weight (f : String × α → Nat) (map : KeyMap α) : Nat :=
  weightOf f map.entries

/-- The map with further entries, of which the last one of a key counts. -/
def addAll (map : KeyMap α) (entries : List (String × α)) : KeyMap α :=
  entries.foldl (fun map e => map.insert e.1 e.2) map

/-- The map of a list of entries. -/
def ofList (entries : List (String × α)) : KeyMap α :=
  empty.addAll entries

/-- All entries of two maps; where both have a key the second one decides. -/
def union (first second : KeyMap α) : KeyMap α :=
  first.addAll second.entries

/-- The map with a function applied to every value. -/
def map (f : α → β) (m : KeyMap α) : KeyMap β :=
  ⟨m.entries.map fun e => (e.1, f e.2), by
    rw [List.pairwise_map]
    exact m.sorted⟩

theorem lookup_insertEntry (key : String) (value : α) (entries : List (String × α))
    (sought : String) :
    (insertEntry key value entries).lookup sought =
      if sought = key then some value else entries.lookup sought := by
  induction entries with
  | nil =>
    rw [insertEntry, List.lookup_cons, List.lookup_nil]
    by_cases hs : sought = key
    · rw [if_pos hs, beq_iff_eq.2 hs]
    · rw [if_neg hs, beq_eq_false_iff_ne.2 hs]
  | cons head rest ih =>
    obtain ⟨k, v⟩ := head
    unfold insertEntry
    grind

/-- An insertion decides the look-up of its key and leaves every other one alone. -/
@[simp] theorem get?_insert (map : KeyMap α) (key : String) (value : α) (sought : String) :
    (map.insert key value).get? sought =
      if sought = key then some value else map.get? sought :=
  lookup_insertEntry key value map.entries sought

@[simp] theorem get?_empty (sought : String) : (empty : KeyMap α).get? sought = none := rfl

/-- A key below all keys of a list has no value in it. -/
theorem lookup_eq_none_of_lt {key : String} {entries : List (String × α)}
    (h : ∀ e ∈ entries, key < e.1) : entries.lookup key = none := by
  induction entries with
  | nil => rfl
  | cons head rest ih =>
    have hne : key ≠ head.1 := String.ne_of_lt (h head List.mem_cons_self)
    rw [List.lookup_cons, beq_eq_false_iff_ne.2 hne]
    exact ih fun e he => h e (List.mem_cons_of_mem head he)

theorem get?_addAll {entries : List (String × α)}
    (h : entries.Pairwise (fun a b => a.1 < b.1)) (map : KeyMap α) (sought : String) :
    (map.addAll entries).get? sought = (entries.lookup sought).or (map.get? sought) := by
  induction entries generalizing map with
  | nil => rfl
  | cons head rest ih =>
    obtain ⟨hhead, hrest⟩ := List.pairwise_cons.1 h
    have hfirst : (map.addAll (head :: rest)).get? sought =
        (rest.lookup sought).or ((map.insert head.1 head.2).get? sought) := ih hrest _
    rw [hfirst, get?_insert, List.lookup_cons]
    by_cases hs : sought = head.1
    · subst hs
      rw [lookup_eq_none_of_lt hhead]
      simp
    · simp [hs, beq_eq_false_iff_ne.2 hs]

/-- In a union the second map decides every look-up of its keys, and the first map the others. -/
@[simp] theorem get?_union (first second : KeyMap α) (sought : String) :
    (first.union second).get? sought = (second.get? sought).or (first.get? sought) :=
  get?_addAll second.sorted first sought

end KeyMap

end FluentGen
