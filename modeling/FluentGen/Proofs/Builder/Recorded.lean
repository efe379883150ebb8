import FluentGen.Builder.Expansion
import FluentGen.Proofs.Emit.Lines

/-!
A walk over messages together with the visits it makes. The walk is the one that the builder runs;
only what a visit does is replaced, by the same step with a note that it has been made. Dropping
the notes gives the builder's own run back.
-/

namespace FluentGen

namespace Builder

/-- A step and the visits that are made in it, in order. -/
structure Recorded (α : Type) where
  visits : List Visit
  step : Emit α

namespace Recorded

variable {α β : Type}

/-- The visits of the second step are made only if the first one does not fail. -/
protected def bind (first : Recorded α) (next : α → Recorded β) : Recorded β where
  visits := first.visits ++
    match first.step.result with
    | .error _ => []
    | .ok a => (next a).visits
  step := first.step >>= fun a => (next a).step

instance : Monad Recorded where
  pure a := ⟨[], pure a⟩
  bind := Recorded.bind

/-- A step without a visit. -/
instance : MonadLift Emit Recorded where
  monadLift step := ⟨[], step⟩

/-- The step of a visit. -/
def ofVisit (visit : Visit) (step : Emit α) : Recorded α := ⟨[visit], step⟩

@[simp] theorem step_pure (a : α) : (pure a : Recorded α).step = pure a := rfl

@[simp] theorem step_lift (s : Emit α) : (liftM s : Recorded α).step = s := rfl

@[simp] theorem visits_lift (s : Emit α) : (liftM s : Recorded α).visits = [] := rfl

@[simp] theorem visits_pure (a : α) : (pure a : Recorded α).visits = [] := rfl

@[simp] theorem step_bind (first : Recorded α) (next : α → Recorded β) :
    (first >>= next).step = first.step >>= fun a => (next a).step := rfl

/-- Two steps that end well make the visits of the first and then those of the second. -/
theorem visits_bind {first : Recorded α} {next : α → Recorded β} {b : β}
    (h : (first >>= next).step.result = .ok b) :
    ∃ a, first.step.result = .ok a ∧ (next a).step.result = .ok b ∧
      (first >>= next).visits = first.visits ++ (next a).visits := by
  obtain ⟨a, hfirst, hnext⟩ := Emit.bind_result_ok h
  refine ⟨a, hfirst, hnext, ?_⟩
  change first.visits ++ _ = _
  simp [hfirst]

end Recorded

/-- A visit that writes the field and is noted. -/
def noteVisit (b : Builder) (visit : Visit) : Recorded Bool :=
  .ofVisit visit (b.writeVisit visit)

/-- The builder's run with the visits it makes. -/
def recorded (b : Builder) : Recorded Unit :=
  b.walk b.noteVisit

section Forget

variable (b : Builder)

theorem step_walkInto (enter : Place → Recorded Unit) (place : Place) (field : Schema.Field)
    (expand : Bool) :
    (b.walkInto enter place field expand).step =
      b.walkInto (fun inner => (enter inner).step) place field expand := by
  unfold walkInto
  split <;> rfl

theorem step_walkField (enter : Place → Recorded Unit) (place : Place) (field : Schema.Field) :
    (b.walkField b.noteVisit enter place field).step =
      b.walkField b.writeVisit (fun inner => (enter inner).step) place field := by
  unfold walkField
  split
  · rfl
  · simp only [Recorded.step_bind, step_walkInto, Recorded.step_lift]
    rfl

theorem step_walkFields (enter : Place → Recorded Unit) (place : Place)
    (fields : List Schema.Field) :
    (b.walkFields b.noteVisit enter place fields).step =
      b.walkFields b.writeVisit (fun inner => (enter inner).step) place fields := by
  induction fields with
  | nil => rfl
  | cons field rest ih =>
    simp only [walkFields, Recorded.step_bind, step_walkField, ih]

theorem step_walkMessage (fuel : Nat) (path : List Schema.Address) (place : Place) :
    (b.walkMessage b.noteVisit fuel path place).step =
      b.walkMessage b.writeVisit fuel path place := by
  induction fuel generalizing path place with
  | zero => rfl
  | succ fuel ih =>
    simp only [walkMessage]
    split
    · rfl
    · split
      · rfl
      · simp only [Recorded.step_bind, step_walkFields, ih]
        rfl

/-- Without the notes the recorded run is the builder's own. -/
theorem step_recorded : b.recorded.step = b.write := by
  simp only [recorded, write, walk, Recorded.step_bind, step_walkMessage]
  rfl

/-- A run that ends well makes the visits of the walk from the builder's message. -/
theorem visits_recorded_eq {b : Builder} (h : b.recorded.step.result = .ok ()) :
    (b.walkMessage b.noteVisit (b.pool.messages.length + 2) [] b.root).step.result = .ok () ∧
      b.recorded.visits =
        (b.walkMessage b.noteVisit (b.pool.messages.length + 2) [] b.root).visits := by
  obtain ⟨_, -, hrest, hvisits⟩ := Recorded.visits_bind h
  obtain ⟨_, hwalk, -, hmore⟩ := Recorded.visits_bind hrest
  refine ⟨hwalk, ?_⟩
  rw [recorded, walk, hvisits, hmore]
  simp

end Forget

end Builder

end FluentGen
