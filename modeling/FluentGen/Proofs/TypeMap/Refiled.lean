import FluentGen.Proofs.TypeMap.Extension
import Mathlib.Data.List.Dedup
import Mathlib.Data.List.Nodup

/-!
How many entries are left after filing. The texts are checked for keys that are given twice before
their entries are filed, and filing brings different spellings of a type to one key. What is loaded
has one entry for each of the filed keys, so entries that collide there are counted once.
-/

namespace FluentGen.TypeMap

variable {map : TypeMap} {e f : String × FieldOptions}

/-- What the texts say together, before filing: the custom entries on top of the others. -/
def merged? (text : String) (custom : Option String) : Option TypeMap := do
  let first ← read? text
  match custom with
  | none => return first
  | some more => return first.union (← read? more)

/-- The C++ name of the type that an automatic entry is for. -/
def automaticName (e : String × FieldOptions) : String :=
  Name.absolute (Text.tail e.1)

/-- Two entries that filing brings to one key. -/
inductive Collide (e f : String × FieldOptions) : Prop where
  /-- Two automatic entries, for one type that their keys spell in different ways. -/
  | spellings (he : e.2.automatic.getD false = true) (hf : f.2.automatic.getD false = true)
      (hkeys : e.1 ≠ f.1) (hname : automaticName e = automaticName f)
  /-- An automatic entry and a different one that already has the key. -/
  | taken (he : e.2.automatic.getD false = true) (hf : f.2.automatic.getD false = false)
      (hkey : f.1 = String.singleton automaticSigil ++ automaticName e)

section Keys

theorem filedKey_automatic (h : e.2.automatic.getD false = true) :
    filedKey e.1 e.2 = String.singleton automaticSigil ++ automaticName e :=
  if_pos h

theorem filedKey_other (h : e.2.automatic.getD false = false) : filedKey e.1 e.2 = e.1 := by
  rw [filedKey, h]
  rfl

theorem filedKey_of_collide (h : Collide e f) : filedKey e.1 e.2 = filedKey f.1 f.2 := by
  cases h with
  | spellings he hf _ hname => rw [filedKey_automatic he, filedKey_automatic hf, hname]
  | taken he hf hkey => rw [filedKey_automatic he, filedKey_other hf, hkey]

theorem ne_of_collide (h : Collide e f) : e ≠ f := by
  rintro rfl
  cases h with
  | spellings _ _ hkeys _ => exact hkeys rfl
  | taken he hf _ =>
    rw [he] at hf
    cases hf

theorem collide_of_filedKey_eq (hkeys : e.1 ≠ f.1) (h : filedKey e.1 e.2 = filedKey f.1 f.2) :
    Collide e f ∨ Collide f e := by
  cases he : e.2.automatic.getD false with
  | true =>
    rw [filedKey_automatic he] at h
    cases hf : f.2.automatic.getD false with
    | true =>
      rw [filedKey_automatic hf] at h
      exact Or.inl (.spellings he hf hkeys ((String.append_right_inj _).1 h))
    | false =>
      rw [filedKey_other hf] at h
      exact Or.inl (.taken he hf h.symm)
  | false =>
    rw [filedKey_other he] at h
    cases hf : f.2.automatic.getD false with
    | true =>
      rw [filedKey_automatic hf] at h
      exact Or.inr (.taken hf he h)
    | false =>
      rw [filedKey_other hf] at h
      exact absurd h hkeys

/-- The filed keys of a map are different exactly if no two of its entries collide. -/
theorem nodup_filedKeys_iff :
    (map.entries.map fun e => filedKey e.1 e.2).Nodup ↔
      ∀ e ∈ map.entries, ∀ f ∈ map.entries, ¬ Collide e f := by
  have hentries : map.entries.Nodup := map.nodup_keys.of_map
  rw [List.nodup_map_iff_inj_on hentries]
  constructor
  · intro h e he f hf hcollide
    exact ne_of_collide hcollide (h e he f hf (filedKey_of_collide hcollide))
  · intro h e he f hf hkey
    by_contra hne
    have hkeys : e.1 ≠ f.1 := fun heq => hne (List.inj_on_of_nodup_map map.nodup_keys he hf heq)
    rcases collide_of_filedKey_eq hkeys hkey with hcollide | hcollide
    · exact h e he f hf hcollide
    · exact h f hf e he hcollide

end Keys

section Size

theorem mem_keys_file_iff {key : String} :
    key ∈ (file map).entries.map Prod.fst ↔ ∃ e ∈ map.entries, filedKey e.1 e.2 = key := by
  constructor
  · intro h
    obtain ⟨filed, hfiled, rfl⟩ := List.mem_map.1 h
    obtain ⟨e, he, rfl⟩ := exists_of_mem_file hfiled
    exact ⟨e, he, rfl⟩
  · rintro ⟨e, he, rfl⟩
    obtain ⟨o, ho⟩ := Option.isSome_iff_exists.1 (isSome_get?_file he)
    exact List.mem_map.2 ⟨_, ((file map).mem_entries_iff (_, o)).2 ho, rfl⟩

/-- A filed map has one entry for each of the filed keys. -/
theorem size_file (map : TypeMap) :
    (file map).size = (map.entries.map fun e => filedKey e.1 e.2).dedup.length := by
  have hperm : ((file map).entries.map Prod.fst).Perm
      (map.entries.map fun e => filedKey e.1 e.2).dedup := by
    rw [List.perm_ext_iff_of_nodup (file map).nodup_keys (List.nodup_dedup _)]
    intro key
    rw [mem_keys_file_iff, List.mem_dedup, List.mem_map]
  rw [← hperm.length_eq, List.length_map]
  rfl

theorem size_file_eq_iff :
    (file map).size = map.size ↔ ∀ e ∈ map.entries, ∀ f ∈ map.entries, ¬ Collide e f := by
  have hsize := (KeyMap.size_ofList (map.entries.map filedEntry)).2
  rw [List.length_map, List.map_map] at hsize
  exact hsize.trans nodup_filedKeys_iff

end Size

/-- What is loaded is what the texts say together, accepted. -/
theorem accept_of_load {text : String} {custom : Option String} (h : load text custom = .ok map) :
    ∃ merged, merged? text custom = some merged ∧ accept merged = .ok map := by
  obtain ⟨first, hfirst, hwith⟩ := exists_of_bind_eq_ok h
  cases custom with
  | none =>
    refine ⟨first, ?_, hwith⟩
    rw [merged?, read?_of_ofText hfirst]
    rfl
  | some more =>
    obtain ⟨second, hsecond, haccept⟩ := exists_of_bind_eq_ok hwith
    refine ⟨first.union second, ?_, haccept⟩
    rw [merged?, read?_of_ofText hfirst]
    simp [read?_of_ofText hsecond]

theorem merged?_of_load {text : String} {custom : Option String} (h : load text custom = .ok map) :
    ∃ merged, merged? text custom = some merged ∧ file merged = map := by
  obtain ⟨merged, hmerged, haccept⟩ := accept_of_load h
  exact ⟨merged, hmerged, (accept_eq_ok_iff.1 haccept).2⟩

/-- What is loaded holds every entry of the texts under its filed key, or another one that has the
same, and nothing else. So it has as many entries as there are different filed keys, and as many as
the texts say together exactly if no two of these collide. -/
theorem size_of_load {text : String} {custom : Option String} (h : load text custom = .ok map) :
    ∃ merged, merged? text custom = some merged ∧
      (∀ e ∈ merged.entries, (map.get? (filedKey e.1 e.2)).isSome) ∧
      (∀ filed ∈ map.entries, ∃ e ∈ merged.entries, filedEntry e = filed) ∧
      map.size = (merged.entries.map fun e => filedKey e.1 e.2).dedup.length ∧
      (map.size = merged.size ↔
        ∀ e ∈ merged.entries, ∀ f ∈ merged.entries, ¬ Collide e f) := by
  obtain ⟨merged, hmerged, rfl⟩ := merged?_of_load h
  exact ⟨merged, hmerged, fun _ he => isSome_get?_file he, fun _ hfiled => exists_of_mem_file hfiled,
    size_file merged, size_file_eq_iff⟩

/-- A type that is spelled with dots in one entry and with scopes in another: both keys are accepted,
and one of the two entries is gone. -/
theorem size_of_load_twoSpellings :
    let text := "type_map < key: '=a.b.C' value < type: 'T' automatic: true > > " ++
      "type_map < key: '=::a::b::C' value < type: 'T' automatic: true > >"
    ∃ map merged : TypeMap, load text = .ok map ∧ merged? text none = some merged ∧
      merged.size = 2 ∧ map.size = 1 ∧
      ∃ e ∈ merged.entries, ∃ f ∈ merged.entries, Collide e f := by
  intro text
  let map : TypeMap :=
    .ofList [("=::a::b::C", { type := "T", automatic := true, recurse := false })]
  have hload : load text = .ok map := by decide +kernel
  obtain ⟨merged, hmerged, -, -, -, hiff⟩ := size_of_load hload
  have htwo : (merged? text none).map KeyMap.size = some 2 := by decide +kernel
  rw [hmerged] at htwo
  have hsize : merged.size = 2 := Option.some.inj htwo
  refine ⟨map, merged, hload, hmerged, hsize, rfl, ?_⟩
  by_contra hnone
  have hsame : map.size = merged.size :=
    hiff.2 fun e he f hf hcollide => hnone ⟨e, he, f, hf, hcollide⟩
  rw [hsize] at hsame
  cases hsame

end FluentGen.TypeMap
