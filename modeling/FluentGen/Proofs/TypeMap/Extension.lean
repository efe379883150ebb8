import FluentGen.Proofs.TypeMap.Updates

/-!
The two ways to extend a type map: a custom text that is loaded together with the built-in one, and
an update of the map that the built-in text alone gives. Loading files every entry, an update puts
its entries down as they are. So the two agree on entries that filing leaves alone, unless such an
entry meets an automatic one that filing has moved away from its key.
-/

namespace FluentGen.TypeMap

variable {map other base added : TypeMap}

section Questions

/-- Two type maps that answer every question in the same way. -/
structure AnswersAlike (first second : TypeMap) : Prop where
  typeInfo : ∀ key special, first.typeInfo key special = second.typeInfo key special
  automaticType? : ∀ type, first.automaticType? type = second.automaticType? type
  expansion : ∀ name, first.expansion name = second.expansion name
  resolveMacro : ∀ o, first.resolveMacro o = second.resolveMacro o

theorem typeInfo_hasSigil (map : TypeMap) (key : String) :
    map.typeInfo key (hasSigil specialSigil key) = .ok (map.get? key) := by
  simp [typeInfo]

-- Every entry can be asked for by its key, so the answers leave no room for a difference.
theorem answersAlike_iff_eq : AnswersAlike map other ↔ map = other := by
  constructor
  · intro h
    apply KeyMap.ext_get?
    intro key
    have hinfo := h.typeInfo key (hasSigil specialSigil key)
    rw [typeInfo_hasSigil, typeInfo_hasSigil] at hinfo
    exact Except.ok.inj hinfo
  · rintro rfl
    exact ⟨fun _ _ => rfl, fun _ => rfl, fun _ => rfl, fun _ => rfl⟩

end Questions

section Filed

/-- What is filed under a key depends only on the entries that are filed there. -/
theorem get?_file_congr {key : String}
    (h : ∀ e, filedKey e.1 e.2 = key → (e ∈ map.entries ↔ e ∈ other.entries)) :
    (file map).get? key = (file other).get? key := by
  apply KeyMap.get?_ofList_congr
  rw [List.filter_map, List.filter_map]
  congr 1
  apply KeyMap.eq_of_mem_iff (map.sorted.filter _) (other.sorted.filter _)
  intro e
  rw [List.mem_filter, List.mem_filter]
  apply and_congr_left
  intro hkey
  exact h e (of_decide_eq_true hkey)

theorem exists_of_get?_file {key : String} {o : FieldOptions} (h : (file map).get? key = some o) :
    ∃ e ∈ map.entries, filedEntry e = (key, o) :=
  exists_of_mem_file (((file map).mem_entries_iff (key, o)).2 h)

theorem isSome_get?_file {e : String × FieldOptions} (h : e ∈ map.entries) :
    ((file map).get? (filedKey e.1 e.2)).isSome := by
  apply KeyMap.isSome_get?_addAll
  right
  rw [List.map_map]
  exact List.mem_map_of_mem (f := Prod.fst ∘ filedEntry) h

theorem mem_union_iff {e : String × FieldOptions} :
    e ∈ (base.union added).entries ↔
      e ∈ added.entries ∨ added.get? e.1 = none ∧ e ∈ base.entries := by
  rw [KeyMap.mem_entries_iff, KeyMap.mem_entries_iff, KeyMap.mem_entries_iff, KeyMap.get?_union,
    Option.or_eq_some_iff]

end Filed

/-- An entry that filing leaves alone, and whose key no automatic entry of another map has left or
been moved to. -/
structure Settled (base : TypeMap) (e : String × FieldOptions) : Prop where
  filed : filedEntry e = e
  unmoved : ∀ f ∈ base.entries, f.1 = e.1 ∨ filedKey f.1 f.2 = e.1 → filedKey f.1 f.2 = f.1

/-- No two entries of different keys are filed under one: no type is spelled in two ways. -/
def FiledApart (entries : List (String × FieldOptions)) : Prop :=
  ∀ e ∈ entries, ∀ f ∈ entries, filedKey e.1 e.2 = filedKey f.1 f.2 → e.1 = f.1

instance (entries : List (String × FieldOptions)) : Decidable (FiledApart entries) :=
  inferInstanceAs (Decidable (∀ e ∈ entries, ∀ f ∈ entries,
    filedKey e.1 e.2 = filedKey f.1 f.2 → e.1 = f.1))

section Union

theorem Settled.filedKey_eq {e : String × FieldOptions} (h : Settled base e) :
    filedKey e.1 e.2 = e.1 :=
  congrArg Prod.fst h.filed

/-- Where an entry is settled, nothing but itself is filed under its key. -/
theorem get?_file_union_of_settled (h : ∀ e ∈ added.entries, Settled base e)
    {e : String × FieldOptions} (he : e ∈ added.entries) :
    (file (base.union added)).get? e.1 = some e.2 := by
  have hself : (file (KeyMap.ofList [e])).get? e.1 = some e.2 := by
    have hfiled : file (KeyMap.ofList [e]) = KeyMap.ofList [e] :=
      congrArg (fun e => KeyMap.ofList [e]) (h e he).filed
    rw [hfiled]
    exact KeyMap.get?_addAll_of_mem (by simp) List.mem_cons_self _
  rw [← hself]
  apply get?_file_congr
  intro f hf
  rw [mem_union_iff]
  constructor
  · rintro (hadded | ⟨hnone, hbase⟩)
    · have hkey : f.1 = e.1 := (h f hadded).filedKey_eq.symm.trans hf
      have hvalue := (added.mem_entries_iff f).1 hadded
      rw [hkey, (added.mem_entries_iff e).1 he] at hvalue
      rw [← Prod.ext hkey.symm (Option.some.inj hvalue)]
      exact List.mem_cons_self
    · have hkey := (h e he).unmoved f hbase (Or.inr hf)
      rw [← hkey, hf, (added.mem_entries_iff e).1 he] at hnone
      cases hnone
  · intro hmem
    rw [List.mem_singleton.1 (KeyMap.mem_ofList hmem)]
    exact Or.inl he

/-- Settled entries may be added before or after filing. -/
theorem file_union_of_settled (h : ∀ e ∈ added.entries, Settled base e) :
    file (base.union added) = (file base).union added := by
  apply KeyMap.ext_get?
  intro key
  rw [KeyMap.get?_union]
  cases hkey : added.get? key with
  | some o =>
    exact get?_file_union_of_settled h ((added.mem_entries_iff (key, o)).2 hkey)
  | none =>
    rw [Option.none_or]
    apply get?_file_congr
    intro f hf
    rw [mem_union_iff]
    constructor
    · rintro (hadded | ⟨-, hbase⟩)
      · have hself := (h f hadded).filedKey_eq
        rw [hf] at hself
        rw [hself, (added.mem_entries_iff f).1 hadded] at hkey
        cases hkey
      · exact hbase
    · intro hbase
      right
      refine ⟨?_, hbase⟩
      by_contra hsome
      obtain ⟨o, ho⟩ := Option.ne_none_iff_exists'.1 hsome
      have hmem : (f.1, o) ∈ added.entries := (added.mem_entries_iff (f.1, o)).2 ho
      have hself := (h _ hmem).unmoved f hbase (Or.inl rfl)
      rw [← hf, hself, ho] at hkey
      cases hkey

/-- Entries that may be added before or after filing are settled. -/
theorem settled_of_file_union (hapart : FiledApart (base.entries ++ added.entries))
    (h : file (base.union added) = (file base).union added) {e : String × FieldOptions}
    (he : e ∈ added.entries) : Settled base e := by
  have hfound : ∀ {key o}, ((file base).union added).get? key = some o →
      ∃ f ∈ (base.union added).entries, filedEntry f = (key, o) :=
    fun hkey => exists_of_get?_file (h ▸ hkey)
  have hvalue : ((file base).union added).get? e.1 = some e.2 := by
    rw [KeyMap.get?_union, (added.mem_entries_iff e).1 he, Option.some_or]
  have hfiled : filedEntry e = e := by
    obtain ⟨f, -, hf⟩ := hfound hvalue
    have hf : filedEntry f = e := hf
    rw [← hf, filedEntry_filedEntry]
  have hkey : filedKey e.1 e.2 = e.1 := congrArg Prod.fst hfiled
  refine ⟨hfiled, ?_⟩
  rintro f hf (hsame | hmoved)
  · -- the entry is replaced before filing, so nothing may be left where filing moves it
    have hleft : (((file base).union added).get? (filedKey f.1 f.2)).isSome := by
      rw [KeyMap.get?_union, Option.isSome_or, isSome_get?_file hf, Bool.or_true]
    obtain ⟨o, ho⟩ := Option.isSome_iff_exists.1 hleft
    obtain ⟨f', hf', hthere⟩ := hfound ho
    have hmem : f' ∈ base.entries ++ added.entries :=
      List.mem_append.2 ((mem_union_iff.1 hf').symm.imp_left And.right)
    have hfirst : f'.1 = f.1 :=
      hapart f' hmem f (List.mem_append_left _ hf) (congrArg Prod.fst hthere)
    have hlast : f' = e := by
      have hentry := ((base.union added).mem_entries_iff f').1 hf'
      rw [KeyMap.get?_union, hfirst, hsame, (added.mem_entries_iff e).1 he, Option.some_or] at hentry
      exact Prod.ext (hfirst.trans hsame) (Option.some.inj hentry).symm
    rw [hlast, hfiled] at hthere
    exact (congrArg Prod.fst hthere).symm.trans hsame.symm
  · rw [hmoved]
    exact (hapart f (List.mem_append_left _ hf) e (List.mem_append_right _ he)
      (hmoved.trans hkey.symm)).symm

end Union

section Loaded

variable {text more : String} {first whole : TypeMap}

theorem accept_eq_ok_iff :
    accept map = .ok other ↔ verifyEntries map.entries = .ok () ∧ file map = other := by
  constructor
  · intro h
    obtain ⟨⟨⟩, hverify, hfile⟩ := exists_of_bind_eq_ok h
    exact ⟨hverify, Except.ok.inj hfile⟩
  · rintro ⟨hverify, rfl⟩
    rw [accept, hverify]
    rfl

theorem read?_of_ofText {custom : Bool} (h : ofText custom text = .ok map) :
    read? text = some map := by
  unfold ofText at h
  split at h
  · cases h
  · next hread =>
    dsimp only at h
    split at h
    · rw [hread, Except.ok.inj h]
    · cases h

theorem file_of_load (hread : read? text = some base) (h : load text = .ok first) :
    file base = first := by
  obtain ⟨base', hbase, haccept⟩ := exists_of_bind_eq_ok h
  have heq : base' = base := Option.some.inj ((read?_of_ofText hbase).symm.trans hread)
  rw [← heq]
  exact (accept_eq_ok_iff.1 haccept).2

theorem file_of_load_custom (hread : read? text = some base) (hmore : read? more = some added)
    (h : load text (some more) = .ok whole) :
    verifyEntries (base.union added).entries = .ok () ∧ file (base.union added) = whole := by
  obtain ⟨base', hbase, hwith⟩ := exists_of_bind_eq_ok h
  obtain ⟨added', hadded, haccept⟩ := exists_of_bind_eq_ok hwith
  have heq : base' = base := Option.some.inj ((read?_of_ofText hbase).symm.trans hread)
  have heq' : added' = added := Option.some.inj ((read?_of_ofText hadded).symm.trans hmore)
  rw [← heq, ← heq']
  exact accept_eq_ok_iff.1 haccept

end Loaded

/-- A custom text that is loaded with the built-in one and an update with what the custom text says:
the update succeeds, unless it touches a protected entry. Both maps answer every question alike if
the entries of the custom text are settled, and if no type is spelled in two ways then only if they
are. -/
theorem update_agrees_with_load {text more : String} {base added first whole : TypeMap}
    (hbase : read? text = some base) (hadded : read? more = some added)
    (hfirst : load text = .ok first) (hwhole : load text (some more) = .ok whole)
    (hopen : ∀ e ∈ added.entries, isProtected e.1 = false) :
    ∃ next, update first added = .ok next ∧
      ((∀ e ∈ added.entries, Settled base e) → AnswersAlike whole next) ∧
      (FiledApart (base.entries ++ added.entries) → AnswersAlike whole next →
        ∀ e ∈ added.entries, Settled base e) := by
  obtain ⟨hrules, rfl⟩ := file_of_load_custom hbase hadded hwhole
  obtain rfl := file_of_load hbase hfirst
  refine ⟨(file base).union added, update_eq_ok_iff.2 ⟨?_, rfl⟩, ?_, ?_⟩
  · intro e he
    exact ⟨hopen e he, verifyEntries_eq_ok_iff.1 hrules e (mem_union_iff.2 (Or.inl he))⟩
  · intro hsettled
    exact answersAlike_iff_eq.2 (file_union_of_settled hsettled)
  · intro hapart halike e he
    exact settled_of_file_union hapart (answersAlike_iff_eq.1 halike) he

/-- An automatic entry for a type that is spelled with dots. Loading files it where the fields of
the type find it, an update leaves it where no field looks. -/
theorem update_agrees_with_load_dotted :
    ∃ first whole added next : TypeMap,
      load "type_map < key: 'x' value < type: 'X' > >" = .ok first ∧
      load "type_map < key: 'x' value < type: 'X' > >"
        (some "type_map < key: '=a.b.C' value < type: 'T' automatic: true > >") = .ok whole ∧
      read? "type_map < key: '=a.b.C' value < type: 'T' automatic: true > >" = some added ∧
      update first added = .ok next ∧ ¬ AnswersAlike whole next ∧
      whole.automaticType? "::a::b::C" =
        some { type := "T", automatic := true, recurse := false } ∧
      next.automaticType? "::a::b::C" = none := by
  let first : TypeMap := .ofList [("x", { type := "X" })]
  let whole : TypeMap :=
    .ofList [("=::a::b::C", { type := "T", automatic := true, recurse := false }),
      ("x", { type := "X" })]
  let added : TypeMap := .ofList [("=a.b.C", { type := "T", automatic := true })]
  have hadded : read? "type_map < key: '=a.b.C' value < type: 'T' automatic: true > >" =
      some added := by decide +kernel
  have hfirst : load "type_map < key: 'x' value < type: 'X' > >" = .ok first := by decide +kernel
  have hwhole : load "type_map < key: 'x' value < type: 'X' > >"
      (some "type_map < key: '=a.b.C' value < type: 'T' automatic: true > >") = .ok whole := by
    decide +kernel
  have hbase : read? "type_map < key: 'x' value < type: 'X' > >" = some first := by decide +kernel
  obtain ⟨next, hnext, -, honly⟩ :=
    update_agrees_with_load hbase hadded hfirst hwhole (by decide +kernel)
  have hlook : (update first added).map (·.automaticType? "::a::b::C") = .ok none := by
    decide +kernel
  rw [hnext] at hlook
  refine ⟨first, whole, added, next, hfirst, hwhole, hadded, hnext, ?_, by decide +kernel,
    Except.ok.inj hlook⟩
  intro halike
  have hsettled := honly (by decide +kernel) halike ("=a.b.C", { type := "T", automatic := true })
    (by decide +kernel)
  have hkey : filedKey "=a.b.C" { type := "T", automatic := true } = "=a.b.C" :=
    hsettled.filedKey_eq
  exact absurd hkey (by decide +kernel)

end FluentGen.TypeMap
