import Mathlib.Data.List.Forall2

/-!
Steps that may fail, taken one after the other. A run that succeeds has gone through successful
steps only, which is how the theory takes such runs apart.
-/

namespace FluentGen

variable {ε α β : Type}

/-- What corresponds item by item holds of all items on one side exactly if it does on the other. -/
theorem forall_mem_iff_of_forall₂ {R : α → β → Prop} {P : α → Prop} {Q : β → Prop} {items : List α}
    {others : List β} (h : List.Forall₂ R items others) (hiff : ∀ a b, R a b → (P a ↔ Q b)) :
    (∀ a ∈ items, P a) ↔ ∀ b ∈ others, Q b := by
  induction h with
  | nil => simp
  | cons hfirst _ ih => rw [List.forall_mem_cons, List.forall_mem_cons, hiff _ _ hfirst, ih]

theorem exists_left_of_forall₂ {R : α → β → Prop} {items : List α} {others : List β}
    (h : List.Forall₂ R items others) {b : β} (hb : b ∈ others) : ∃ a ∈ items, R a b := by
  induction h with
  | nil => cases hb
  | cons hfirst _ ih =>
    rcases List.mem_cons.1 hb with rfl | hb
    · exact ⟨_, List.mem_cons_self, hfirst⟩
    · obtain ⟨a, ha, hab⟩ := ih hb
      exact ⟨a, List.mem_cons_of_mem _ ha, hab⟩

theorem map_eq_map_of_forall₂ {γ : Type} {R : α → β → Prop} {f : α → γ} {g : β → γ} {items : List α}
    {others : List β} (h : List.Forall₂ R items others) (heq : ∀ a b, R a b → f a = g b) :
    items.map f = others.map g := by
  induction h with
  | nil => rfl
  | cons hfirst _ ih => rw [List.map_cons, List.map_cons, heq _ _ hfirst, ih]

theorem exists_of_bind_eq_ok {x : Except ε α} {f : α → Except ε β} {b : β}
    (h : (x >>= f) = .ok b) : ∃ a, x = .ok a ∧ f a = .ok b := by
  cases x with
  | error e => cases h
  | ok a => exact ⟨a, rfl, h⟩

theorem of_map_eq_error {x : Except ε α} {f : α → β} {e : ε} (h : x.map f = .error e) :
    x = .error e := by
  cases x with
  | error other =>
    cases h
    rfl
  | ok a => cases h

theorem forall₂_of_mapM_eq_ok {f : α → Except ε β} {items : List α} {results : List β}
    (h : items.mapM f = .ok results) : List.Forall₂ (fun a b => f a = .ok b) items results := by
  induction items generalizing results with
  | nil =>
    cases h
    exact .nil
  | cons a items ih =>
    rw [List.mapM_cons] at h
    obtain ⟨b, hb, h⟩ := exists_of_bind_eq_ok h
    obtain ⟨rest, hrest, h⟩ := exists_of_bind_eq_ok h
    cases h
    exact .cons hb (ih hrest)

/-- A run over a list succeeds exactly with the results of its steps. -/
theorem mapM_eq_ok_iff {f : α → Except ε β} {items : List α} {results : List β} :
    items.mapM f = .ok results ↔ List.Forall₂ (fun a b => f a = .ok b) items results := by
  constructor
  · exact forall₂_of_mapM_eq_ok
  · intro h
    induction h with
    | nil => rfl
    | cons hfirst _ ih =>
      rw [List.mapM_cons, hfirst, ih]
      rfl

/-- A run over a list succeeds exactly if each of its steps does. -/
theorem exists_mapM_eq_ok_iff {f : α → Except ε β} {items : List α} :
    (∃ results, items.mapM f = .ok results) ↔ ∀ a ∈ items, ∃ b, f a = .ok b := by
  induction items with
  | nil =>
    constructor
    · rintro - a ha
      cases ha
    · intro _
      exact ⟨[], rfl⟩
  | cons a items ih =>
    rw [List.forall_mem_cons, ← ih]
    constructor
    · rintro ⟨results, h⟩
      cases mapM_eq_ok_iff.1 h with
      | cons hfirst hrest => exact ⟨⟨_, hfirst⟩, ⟨_, mapM_eq_ok_iff.2 hrest⟩⟩
    · rintro ⟨⟨b, hb⟩, ⟨rest, hrest⟩⟩
      exact ⟨b :: rest, mapM_eq_ok_iff.2 (.cons hb (mapM_eq_ok_iff.1 hrest))⟩

section State

variable {σ : Type} {step : ExceptT ε (StateM σ) α} {next : α → ExceptT ε (StateM σ) β} {s t : σ}

theorem run_bind (step : ExceptT ε (StateM σ) α) (next : α → ExceptT ε (StateM σ) β) (s : σ) :
    (step >>= next).run.run s =
      match step.run.run s with
      | (.ok a, t) => (next a).run.run t
      | (.error e, t) => (.error e, t) := by
  change (ExceptT.bindCont next (step.run.run s).1 : StateM σ (Except ε β)) (step.run.run s).2 = _
  rcases step.run.run s with ⟨_ | _, _⟩ <;> rfl

theorem exists_of_run_bind_ok {b : β} (h : (step >>= next).run.run s = (.ok b, t)) :
    ∃ a between, step.run.run s = (.ok a, between) ∧ (next a).run.run between = (.ok b, t) := by
  rw [run_bind] at h
  split at h
  · next a between heq => exact ⟨a, between, heq, h⟩
  · cases h

end State

end FluentGen
