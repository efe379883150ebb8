import FluentGen.Proofs.TypeMap.Filing
import FluentGen.TypeMap.Builtin
import FluentGen.TypeMap.Lookup

/-!
What the type map that every run starts from has to say about a field without annotations. None of
its entries changes the name of a method or the place where it is written, and only durations and
timestamps have a second type.
-/

namespace FluentGen

/-- Options that leave it open how a method is called and where it is written, and that neither fix
its value nor ask for a source location. -/
structure FieldOptions.IsPlain (o : FieldOptions) : Prop where
  name : o.name = none
  value : o.value = none
  output : o.output = none
  addSourceLocation : o.addSourceLocation = none
  override : o.override = none

namespace TypeMap

section Automatic

variable {α : Type} {map : TypeMap}

theorem mem_putEntry {key : String} {value : α} {entries : List (String × α)} {e : String × α}
    (h : e ∈ putEntry key value entries) : e = (key, value) ∨ e ∈ entries := by
  induction entries with
  | nil => exact Or.inl (List.mem_singleton.1 h)
  | cons head rest ih =>
    unfold putEntry at h
    split at h
    · next hkey =>
      rcases List.mem_cons.1 h with rfl | hrest
      · exact Or.inl (congrArg (·, value) hkey)
      · exact Or.inr (List.mem_cons_of_mem _ hrest)
    · rcases List.mem_cons.1 h with rfl | hrest
      · exact Or.inr List.mem_cons_self
      · exact (ih hrest).imp_right (List.mem_cons_of_mem _)

theorem mem_putEntries {entries found : List (String × FieldOptions)} {e : String × FieldOptions}
    (h : e ∈ entries.foldl (fun found e => putEntry (Text.tail e.1) e.2 found) found) :
    e ∈ found ∨ ∃ original ∈ entries, e = (Text.tail original.1, original.2) := by
  induction entries generalizing found with
  | nil => exact Or.inl h
  | cons head rest ih =>
    rcases ih h with hfound | ⟨original, horiginal, heq⟩
    · rcases mem_putEntry hfound with heq | hfound
      · exact Or.inr ⟨head, List.mem_cons_self, heq⟩
      · exact Or.inl hfound
    · exact Or.inr ⟨original, List.mem_cons_of_mem _ horiginal, heq⟩

theorem exists_of_automaticType? {type : String} {o : FieldOptions}
    (h : map.automaticType? type = some o) :
    ∃ e ∈ map.entries, e.2.automatic.getD false = true ∧ type = Text.tail e.1 ∧ o = e.2 := by
  obtain ⟨before, after, hentries, -⟩ := List.lookup_eq_some_iff.1 h
  have hmem : (type, o) ∈ automaticTypes map := by simp [hentries]
  rcases mem_putEntries hmem with hnone | ⟨e, he, heq⟩
  · cases hnone
  · obtain ⟨hentry, hautomatic⟩ := List.mem_filter.1 he
    obtain ⟨htype, ho⟩ := Prod.mk.inj heq
    exact ⟨e, hentry, hautomatic, htype, ho⟩

end Automatic

theorem exists_of_mem_file_builtin {e : String × FieldOptions} (h : e ∈ (file builtin).entries) :
    ∃ original ∈ Builtin.entries, filedEntry original = e := by
  obtain ⟨original, horiginal, heq⟩ := exists_of_mem_file h
  exact ⟨original, KeyMap.mem_ofList horiginal, heq⟩

theorem type_filedOptions (o : FieldOptions) : (filedOptions o).type = o.type := by
  unfold filedOptions
  split
  · rfl
  · rfl

theorem decoratedType_filedOptions (o : FieldOptions) :
    (filedOptions o).decoratedType = o.decoratedType := by
  unfold filedOptions
  split
  · rfl
  · rfl

theorem isPlain_filedOptions {o : FieldOptions} (h : o.IsPlain) : (filedOptions o).IsPlain := by
  unfold filedOptions
  split
  · exact ⟨h.name, h.value, h.output, h.addSourceLocation, h.override⟩
  · exact h

theorem isPlain_of_get?_builtin {key : String} {o : FieldOptions}
    (h : (file builtin).get? key = some o) (hkey : hasSigil specialSigil key = false) :
    o.IsPlain := by
  have hplain : ∀ e ∈ Builtin.entries, hasSigil specialSigil (filedKey e.1 e.2) = true ∨
      e.2.name = none ∧ e.2.value = none ∧ e.2.output = none ∧ e.2.addSourceLocation = none ∧
        e.2.override = none := by decide +kernel
  obtain ⟨e, he, heq⟩ := exists_of_mem_file_builtin ((KeyMap.mem_entries_iff _ (key, o)).2 h)
  obtain ⟨hfiled, rfl⟩ := Prod.mk.inj heq
  rcases hplain e he with hspecial | ⟨hname, hvalue, houtput, hlocation, hoverride⟩
  · rw [hfiled, hkey] at hspecial
    cases hspecial
  · exact isPlain_filedOptions ⟨hname, hvalue, houtput, hlocation, hoverride⟩

/-- The types that a second method sets, each with the type that this one takes. -/
def convertedTypes : List (String × String) :=
  [("::google::protobuf::Duration", "absl::Duration"),
    ("::google::protobuf::Timestamp", "absl::Time")]

theorem automaticType?_builtin {type : String} {o : FieldOptions}
    (h : (file builtin).automaticType? type = some o) :
    ∃ converted, (type, converted) ∈ convertedTypes ∧ o.type = some converted ∧
      o.decoratedType = some converted ∧ o.IsPlain := by
  have hall : ∀ e ∈ Builtin.entries, (filedEntry e).2.automatic.getD false = true →
      (∃ c ∈ convertedTypes, Text.tail (filedEntry e).1 = c.1 ∧ e.2.type = some c.2 ∧
        e.2.decoratedType = some c.2) ∧
      e.2.name = none ∧ e.2.value = none ∧ e.2.output = none ∧ e.2.addSourceLocation = none ∧
        e.2.override = none := by decide +kernel
  obtain ⟨e, he, hautomatic, rfl, rfl⟩ := exists_of_automaticType? h
  obtain ⟨original, horiginal, rfl⟩ := exists_of_mem_file_builtin he
  obtain ⟨⟨c, hc, hkey, htype, hdecorated⟩, hname, hvalue, houtput, hlocation, hoverride⟩ :=
    hall original horiginal hautomatic
  refine ⟨c.2, hkey ▸ hc, ?_, ?_, isPlain_filedOptions ⟨hname, hvalue, houtput, hlocation,
    hoverride⟩⟩
  · rw [filedEntry, type_filedOptions, htype]
  · rw [filedEntry, decoratedType_filedOptions, hdecorated]

/-- Neither a converted type nor what it is converted from has options of its own. -/
theorem get?_builtin_of_converted {c : String × String} (h : c ∈ convertedTypes) :
    (file builtin).get? c.1 = none ∧ (file builtin).get? c.2 = none := by
  have hkeys : ∀ c ∈ convertedTypes, ∀ e ∈ Builtin.entries,
      filedKey e.1 e.2 ≠ c.1 ∧ filedKey e.1 e.2 ≠ c.2 := by decide +kernel
  have hnone : ∀ key, (∀ e ∈ Builtin.entries, filedKey e.1 e.2 ≠ key) →
      (file builtin).get? key = none := by
    intro key hkey
    rw [Option.eq_none_iff_forall_ne_some]
    intro o ho
    obtain ⟨e, he, heq⟩ := exists_of_mem_file_builtin ((KeyMap.mem_entries_iff _ (key, o)).2 ho)
    exact hkey e he (congrArg Prod.fst heq)
  exact ⟨hnone _ fun e he => (hkeys c h e he).1, hnone _ fun e he => (hkeys c h e he).2⟩

end TypeMap

end FluentGen
