import FluentGen.Emit.Basic
import FluentGen.Proofs.Except

/-!
What a sequence of steps writes to one channel. A run that ends well has written the lines of its
steps one after the other, and a step that writes to one channel only leaves no line in another.
-/

namespace FluentGen.Emit

variable {α β : Type}

theorem result_bind (step : Emit α) (next : α → Emit β) :
    (step >>= next).result = step.result >>= fun a => (next a).result := by
  change (Emit.bind step next).result = _
  unfold Emit.bind
  cases step.result with
  | error failure => rfl
  | ok a => rfl

theorem bind_result_ok {step : Emit α} {next : α → Emit β} {b : β}
    (h : (step >>= next).result = .ok b) :
    ∃ a, step.result = .ok a ∧ (next a).result = .ok b := by
  rw [result_bind] at h
  exact exists_of_bind_eq_ok h

theorem ends_bind {step : Emit α} {next : α → Emit β} {a : α} {b : β} (h : step.result = .ok a)
    (hnext : (next a).result = .ok b) : (step >>= next).result = .ok b := by
  rw [result_bind, h]
  exact hnext

theorem out_bind {step : Emit α} {next : α → Emit β} {a : α} (h : step.result = .ok a) :
    (step >>= next).out = step.out ++ (next a).out := by
  change (Emit.bind step next).out = _
  unfold Emit.bind
  simp [h]

theorem bind_congr_ok {step : Emit α} {next other : α → Emit β}
    (h : ∀ a, step.result = .ok a → next a = other a) : (step >>= next) = step >>= other := by
  change Emit.bind step next = Emit.bind step other
  unfold Emit.bind
  cases hresult : step.result with
  | error failure => rfl
  | ok a => simp only [h a hresult]

theorem bind_lift_ok (a : α) (next : α → Emit β) : (lift (.ok a) >>= next) = next a := rfl

theorem bind_lift_error (failure : Failure) (next : α → Emit β) :
    (lift (.error failure) >>= next) = ⟨[], .error failure⟩ := rfl

@[simp] theorem linesTo_nil (channel : Channel) : linesTo channel [] = [] := rfl

@[simp] theorem linesTo_append (channel : Channel) (first second : List Emission) :
    linesTo channel (first ++ second) = linesTo channel first ++ linesTo channel second :=
  List.filterMap_append

/-- The lines that a step writes to a channel. -/
def linesOf (channel : Channel) (step : Emit α) : List String :=
  linesTo channel step.out

@[simp] theorem linesOf_pure (channel : Channel) (a : α) :
    linesOf channel (pure a : Emit α) = [] := rfl

@[simp] theorem linesOf_lift (channel : Channel) (result : Except Failure α) :
    linesOf channel (lift result) = [] := rfl

@[simp] theorem linesOf_log (channel : Channel) (level : Nat) (text : String) :
    linesOf channel (log level text) = [] := rfl

@[simp] theorem linesOf_needs (channel c : Channel) (name : String) :
    linesOf channel (needs c name) = [] := rfl

@[simp] theorem linesOf_needsAll (channel c : Channel) (names : List String) :
    linesOf channel (needsAll c names) = [] := by
  induction names with
  | nil => rfl
  | cons name rest ih => exact ih

@[simp] theorem linesOf_line (channel : Channel) (text : String) :
    linesOf channel (line channel text) = [text] := by
  simp [linesOf, linesTo, line]

@[simp] theorem linesOf_lines (channel : Channel) (texts : List String) :
    linesOf channel (lines channel texts) = texts := by
  simp [linesOf, linesTo, lines, List.filterMap_map]

/-- Two steps that end well write the lines of the first and then those of the second. -/
theorem linesOf_bind (channel : Channel) {step : Emit α} {next : α → Emit β} {b : β}
    (h : (step >>= next).result = .ok b) :
    ∃ a, step.result = .ok a ∧ (next a).result = .ok b ∧
      linesOf channel (step >>= next) = linesOf channel step ++ linesOf channel (next a) := by
  obtain ⟨a, hstep, hnext⟩ := bind_result_ok h
  refine ⟨a, hstep, hnext, ?_⟩
  rw [linesOf, out_bind hstep, linesTo_append]
  rfl

/-- A step that writes lines to no other channels. -/
def StaysIn (channels : List Channel) (step : Emit α) : Prop :=
  ∀ c, c ∉ channels → linesOf c step = []

namespace StaysIn

variable {channels : List Channel}

theorem of_silent {step : Emit α} (h : ∀ c, linesOf c step = []) : StaysIn channels step :=
  fun c _ => h c

theorem line (channel : Channel) (text : String) : StaysIn [channel] (Emit.line channel text) := by
  intro c hc
  have hne : channel ≠ c := fun heq => hc (heq ▸ List.mem_singleton_self channel)
  simp [linesOf, linesTo, Emit.line, hne]

theorem lines (channel : Channel) (texts : List String) :
    StaysIn [channel] (Emit.lines channel texts) := by
  intro c hc
  have hne : channel ≠ c := fun heq => hc (heq ▸ List.mem_singleton_self channel)
  simp [linesOf, linesTo, Emit.lines, List.filterMap_map, hne]

theorem bind {step : Emit α} {next : α → Emit β} (h : StaysIn channels step)
    (hnext : ∀ a, StaysIn channels (next a)) : StaysIn channels (step >>= next) := by
  intro c hc
  change linesOf c (Emit.bind step next) = []
  unfold Emit.bind
  cases step.result with
  | error failure => exact h c hc
  | ok a =>
    have hfirst := h c hc
    have hsecond := hnext a c hc
    simp only [linesOf] at hfirst hsecond ⊢
    rw [linesTo_append, hfirst, hsecond, List.append_nil]

end StaysIn

end FluentGen.Emit
