import FluentGen.Proofs.Builder.Visits

/-!
What the limit of the field depth does. Whether a field is expanded depends on the limit only in so
far as it is 1 or not: a limit of 1 keeps to the fields of the builder's own message, and every
larger one admits the same routes as no limit at all. The depth that a route has reached plays no
part.
-/

namespace FluentGen.Builder

open Schema (Field)

/-- The same builder without a limit of the field depth. -/
def unlimited (b : Builder) : Builder :=
  { b with setup := { b.setup with maxFieldDepth := none } }

section Limit

variable {b : Builder}

theorem expandsFields_iff {n : Nat} (hlimit : b.setup.maxFieldDepth = some n) :
    b.expandsFields = true ↔ 1 < n := by
  simp [expandsFields, hlimit]

/-- Annotations can only take the expansion of a field back. -/
theorem expand_of_writeAnnotated {field : Field} {dataParent nameParent : String} {index : Nat}
    {expand : Bool} {annotations : List FieldOptions}
    (h : (b.writeAnnotated field dataParent nameParent index expand annotations).result =
      .ok true) : expand = true := by
  induction annotations generalizing index expand with
  | nil =>
    cases h
    rfl
  | cons given rest ih =>
    simp only [writeAnnotated] at h
    split at h
    · exact ih h
    · obtain ⟨allowed, -, h⟩ := Emit.bind_result_ok h
      obtain ⟨_, -, h⟩ := Emit.bind_result_ok h
      exact (Bool.and_eq_true_iff.1 (ih h)).1

theorem expandsFields_of_writeVisit {visit : Visit}
    (h : (b.writeVisit visit).result = .ok true) : b.expandsFields = true := by
  simp only [writeVisit, writeField] at h
  split at h
  · obtain ⟨_, -, h⟩ := Emit.bind_result_ok h
    exact Except.ok.inj h
  · exact expand_of_writeAnnotated h

theorem writeAnnotated_unlimited (b : Builder) (field : Field) (dataParent nameParent : String)
    (index : Nat) (expand : Bool) (annotations : List FieldOptions) :
    b.unlimited.writeAnnotated field dataParent nameParent index expand annotations =
      b.writeAnnotated field dataParent nameParent index expand annotations := by
  induction annotations generalizing index expand with
  | nil => rfl
  | cons given rest ih =>
    simp only [writeAnnotated, ih]
    rfl

/-- A limit that lets fields be expanded at all writes what no limit writes. -/
theorem writeVisit_unlimited (h : b.expandsFields = true) (visit : Visit) :
    b.unlimited.writeVisit visit = b.writeVisit visit := by
  simp only [writeVisit, writeField, writeAnnotated_unlimited, h]
  rfl

theorem opens_unlimited_iff (h : b.expandsFields = true) {place : Place} {hop : Hop} :
    b.unlimited.Opens place hop ↔ b.Opens place hop := by
  constructor
  · intro hopen
    exact ⟨hopen.field, hopen.shown, hopen.single, hopen.target,
      writeVisit_unlimited h _ ▸ hopen.expands⟩
  · intro hopen
    exact ⟨hopen.field, hopen.shown, hopen.single, hopen.target,
      (writeVisit_unlimited h _).symm ▸ hopen.expands⟩

/-- A builder admits the routes that it would admit without its limit, but none with a hop if it
expands no field. -/
theorem admits_iff_unlimited {r : Route} :
    b.Admits r ↔ b.unlimited.Admits r ∧ (b.expandsFields = false → r.hops = []) := by
  constructor
  · intro h
    -- The first hop alone shows that fields are expanded.
    have hempty : b.expandsFields = false → r.hops = [] := by
      intro hnever
      cases hhops : r.hops with
      | nil => rfl
      | cons hop after =>
        have hopen := h.opens [] hop after hhops
        rw [expandsFields_of_writeVisit hopen.expands] at hnever
        cases hnever
    refine ⟨⟨h.depth, h.distinct, ?_, h.field, h.shown⟩, hempty⟩
    intro before hop after heq
    have hopen := h.opens before hop after heq
    exact (opens_unlimited_iff (expandsFields_of_writeVisit hopen.expands)).2 hopen
  · rintro ⟨h, hempty⟩
    refine ⟨h.depth, h.distinct, ?_, h.field, h.shown⟩
    intro before hop after heq
    have hexpands : b.expandsFields = true := by
      by_contra hnever
      rw [hempty (Bool.eq_false_iff.2 hnever)] at heq
      simp at heq
    exact (opens_unlimited_iff hexpands).1 (h.opens before hop after heq)

end Limit

/-- With a limit of the field depth a run visits the fields at the ends of the routes that are
admitted without one. A limit of 1 leaves those that have no hop, a larger one leaves them all, of
whatever length. -/
theorem visits_of_maxFieldDepth (b : Builder) {n : Nat} (hlimit : b.setup.maxFieldDepth = some n)
    (hpos : 1 ≤ n) (h : b.write.result = .ok ()) :
    b.recorded.step = b.write ∧
      ∃ routes : List Route,
        b.recorded.visits = routes.map b.visitOf ∧
        ∀ r, r ∈ routes ↔ b.unlimited.Admits r ∧ (n = 1 → r.hops = []) := by
  refine ⟨b.step_recorded, _, b.visits_recorded h, ?_⟩
  intro r
  rw [mem_routesFrom_iff b.suffices_root List.mem_cons_self, admitsFrom_root_iff,
    admits_iff_unlimited]
  have hnever : b.expandsFields = false ↔ n = 1 := by
    rw [← Bool.not_eq_true, expandsFields_iff hlimit]
    omega
  rw [hnever]

/-- A builder with a field depth of 2, whose message holds one that holds another one. -/
def chain : Builder :=
  let a := plainMessage "A" [singleField "b" ⟨"A", [0]⟩ ⟨"B", [0]⟩]
  let b := plainMessage "B" [singleField "c" ⟨"B", [0]⟩ ⟨"C", [0]⟩]
  let c := plainMessage "C" [{ singleField "x" ⟨"C", [0]⟩ ⟨"C", [0]⟩ with
    kind := .int32, target := .scalar }]
  ofMessage {} { messages := [a, b, c] } [] a { maxFieldDepth := some 2 }

/-- The last field of the chain is visited at the end of three fields. -/
theorem visits_of_maxFieldDepth_chain :
    (∃ routes : List Route,
        chain.recorded.visits = routes.map chain.visitOf ∧
        ∀ r, r ∈ routes ↔ chain.unlimited.Admits r ∧ (2 = 1 → r.hops = [])) ∧
      chain.recorded.visits.map (fun v => (v.dataParent, v.field.name)) =
        [("data_.", "b"), ("data_.mutable_b()->", "c"),
          ("data_.mutable_b()->mutable_c()->", "x")] := by
  have hok : chain.write.result = .ok () := by decide +kernel
  exact ⟨(visits_of_maxFieldDepth chain rfl (by decide) hok).2, by decide +kernel⟩

end FluentGen.Builder
