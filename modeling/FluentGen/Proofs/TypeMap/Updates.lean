import FluentGen.Proofs.Except
import FluentGen.Proofs.TypeMap.Expansions

/-!
The updates that messages bring to a type map. A key with a reserved sigil is either a built-in one,
which an update must not touch, or breaks the rules; so no chain of updates reaches an entry under
such a key or the code that is written from it.
-/

namespace FluentGen.TypeMap

variable {map next first last : TypeMap} {updates : List TypeMap}

/-- The type map after the updates of several messages. -/
def updateAll (map : TypeMap) (updates : List TypeMap) : Except Failure TypeMap :=
  updates.foldlM update map

section Step

theorem extend_eq_ok_iff {entries : List (String × FieldOptions)} :
    extend map entries = .ok next ↔
      (∀ e ∈ entries, isProtected e.1 = false ∧ brokenRule? e.1 e.2 = none) ∧
        map.addAll entries = next := by
  induction entries generalizing map with
  | nil => simp [extend, KeyMap.addAll]
  | cons e rest ih =>
    obtain ⟨key, o⟩ := e
    have hadd : map.addAll ((key, o) :: rest) = (map.insert key o).addAll rest := rfl
    rw [List.forall_mem_cons, hadd, and_assoc, ← ih, extend, verifyEntry]
    cases isProtected key with
    | true =>
      constructor
      · intro h
        cases h
      · rintro ⟨⟨h, -⟩, -⟩
        cases h
    | false =>
      cases brokenRule? key o with
      | none =>
        constructor
        · intro h
          exact ⟨⟨rfl, rfl⟩, h⟩
        · rintro ⟨-, h⟩
          exact h
      | some rule =>
        constructor
        · intro h
          cases h
        · rintro ⟨⟨-, h⟩, -⟩
          cases h

/-- An update succeeds exactly if its entries are not protected and keep the rules, and lays them
on top. -/
theorem update_eq_ok_iff {added : TypeMap} :
    update map added = .ok next ↔
      (∀ e ∈ added.entries, isProtected e.1 = false ∧ brokenRule? e.1 e.2 = none) ∧
        map.union added = next :=
  extend_eq_ok_iff

theorem isReservedKey_eq_false {key : String} {o : FieldOptions} (hopen : isProtected key = false)
    (hrule : brokenRule? key o = none) : isReservedKey key = false := by
  cases hreserved : isReservedKey key with
  | false => rfl
  | true =>
    have hlisted := List.contains_iff_mem.2 (mem_builtinKeys_of_keepsRules hrule hreserved)
    rw [isProtected, hreserved, hlisted] at hopen
    cases hopen

theorem get?_update {added : TypeMap} (h : update map added = .ok next) {key : String}
    (hkey : isReservedKey key = true) : next.get? key = map.get? key := by
  obtain ⟨hadded, rfl⟩ := update_eq_ok_iff.1 h
  cases hvalue : added.get? key with
  | none => rw [KeyMap.get?_union, hvalue, Option.none_or]
  | some o =>
    obtain ⟨hopen, hrule⟩ := hadded (key, o) ((added.mem_entries_iff (key, o)).2 hvalue)
    rw [isReservedKey_eq_false hopen hrule] at hkey
    cases hkey

theorem keepsRules_update {added : TypeMap} (h : update map added = .ok next)
    (hrules : KeepsRules map) : KeepsRules next := by
  obtain ⟨hadded, rfl⟩ := update_eq_ok_iff.1 h
  intro e he
  rcases KeyMap.mem_addAll he with hold | hnew
  · exact hrules e hold
  · exact (hadded e hnew).2

end Step

section Run

/-- What each update preserves is preserved by all of them. -/
theorem updateAll_preserves {P : TypeMap → Prop}
    (hstep : ∀ {map added next}, update map added = .ok next → P map → P next)
    (h : updateAll first updates = .ok last) (hfirst : P first) : P last := by
  induction updates generalizing first with
  | nil =>
    cases h
    exact hfirst
  | cons added rest ih =>
    obtain ⟨next, hnext, hrest⟩ := exists_of_bind_eq_ok h
    exact ih hrest (hstep hnext hfirst)

theorem get?_updateAll (h : updateAll first updates = .ok last) {key : String}
    (hkey : isReservedKey key = true) : last.get? key = first.get? key :=
  updateAll_preserves (P := fun map => map.get? key = first.get? key)
    (fun hupdate hmap => (get?_update hupdate hkey).trans hmap) h rfl

theorem keepsRules_updateAll (h : updateAll first updates = .ok last) (hrules : KeepsRules first) :
    KeepsRules last :=
  updateAll_preserves keepsRules_update h hrules

theorem keepsRules_of_load {text : String} {custom : Option String}
    (h : load text custom = .ok map) : KeepsRules map := by
  obtain ⟨merged, hmerged, rfl⟩ := exists_of_load h
  exact verifyEntries_eq_ok_iff.1 (verifyEntries_file hmerged)

end Run

/-- No chain of updates tampers with the entries under reserved sigils: they stay as they have been
loaded, and so do their expansions. All entries keep the rules, and each key that is expanded is
expanded from its own options. -/
theorem reserved_entries_of_updateAll {text : String} {custom : Option String}
    (hload : load text custom = .ok first) (hupdates : updateAll first updates = .ok last) :
    (∀ key, isReservedKey key = true → last.get? key = first.get? key) ∧
      (∀ e ∈ last.entries, verifyEntry e.1 e.2 = .ok ()) ∧
      (∀ e ∈ last.entries, isExpanded e.1 = true → ∀ ending ∈ expansionEnds,
        (expansions last).get? (e.1 ++ ending) = (expansionsOf e.1 e.2).lookup (e.1 ++ ending)) ∧
      ∀ name, hasSigil specialSigil name = true →
        (expansions last).get? name = (expansions first).get? name := by
  have hfirst := keepsRules_of_load hload
  have hlast := keepsRules_updateAll hupdates hfirst
  have hreserved : ∀ key, isReservedKey key = true → last.get? key = first.get? key :=
    fun _ hkey => get?_updateAll hupdates hkey
  refine ⟨hreserved, ?_, ?_, ?_⟩
  · intro e he
    rw [verifyEntry, hlast e he]
  · intro e he hexpanded ending hending
    exact get?_expansions_append hlast ((last.mem_entries_iff e).1 he) hexpanded hending
  · intro name hname
    refine get?_expansions_congr hlast hfirst ?_ hname
    intro key hkey
    exact hreserved key (by rw [isReservedKey, hkey, Bool.or_true])

/-- Two updates of a loaded type map that add a custom key and change it again. -/
theorem reserved_entries_of_updateAll_custom :
    ∃ first last,
      load "type_map < key: '%Status' value < type: 'S' value: 'Ok()' > >" = .ok first ∧
      updateAll first
        [.ofList [("$Mine", { type := "A", param := "it" }), ("int32", { type := "B" })],
          .ofList [("$Mine", { type := "C", value := "C()" })]] = .ok last ∧
      (∀ key, isReservedKey key = true → last.get? key = first.get? key) ∧
      (∀ e ∈ last.entries, verifyEntry e.1 e.2 = .ok ()) ∧
      (∀ e ∈ last.entries, isExpanded e.1 = true → ∀ ending ∈ expansionEnds,
        (expansions last).get? (e.1 ++ ending) = (expansionsOf e.1 e.2).lookup (e.1 ++ ending)) ∧
      ∀ name, hasSigil specialSigil name = true →
        (expansions last).get? name = (expansions first).get? name := by
  let first : TypeMap := .ofList [("%Status", { type := "S", value := "Ok()" })]
  let last : TypeMap := .ofList
    [("%Status", { type := "S", value := "Ok()" }), ("$Mine", { type := "C", value := "C()" }),
      ("int32", { type := "B" })]
  have hload : load "type_map < key: '%Status' value < type: 'S' value: 'Ok()' > >" = .ok first := by
    decide +kernel
  have hupdates : updateAll first
      [.ofList [("$Mine", { type := "A", param := "it" }), ("int32", { type := "B" })],
        .ofList [("$Mine", { type := "C", value := "C()" })]] = .ok last := by
    decide +kernel
  exact ⟨first, last, hload, hupdates, reserved_entries_of_updateAll hload hupdates⟩

end FluentGen.TypeMap
