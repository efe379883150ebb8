import FluentGen.Proofs.Setter.Scope
import FluentGen.Proofs.Setter.Unguarded

/-!
The lines of a definition. A method that is written has a value to store, and its definition is the
head, the guard of its predicate, the statements that store the value, and the end.
-/

namespace FluentGen.Setter

open Emit (linesOf)

variable {s : Setter} {channel : Channel}

theorem exists_setValue (h : (s.writeBody channel).result = .ok ()) :
    ∃ value, s.setValue = .ok value := by
  cases hvalue : s.setValue with
  | ok value => exact ⟨value, rfl⟩
  | error failure =>
    unfold writeBody at h
    simp only [hvalue, Emit.bind_lift_error, ite_self] at h
    cases h

/-- A definition has the guard of its predicate, if there is one, and the body for its value. -/
theorem linesOf_definition (hdefined : s.DefinedIn channel) (h : s.write.result = .ok ()) :
    ∃ value guard, s.setValue = .ok value ∧
      (guard ≠ [] → ∃ predicate, s.predicate = .ok predicate ∧ guard = s.guardOf predicate) ∧
      linesOf channel s.write =
        "" :: linesOf channel (s.writeTemplateLine channel) ++ [s.signature channel] ++ guard ++
          s.body value ++ ["  return *this;", "\x7d", ""] := by
  obtain ⟨hguard, hlines⟩ := linesOf_write_of_defined hdefined h
  obtain ⟨hwritten, -⟩ := linesOf_write hdefined h
  have hbody : (s.writeBody channel).result = .ok () := by
    unfold writeImplementation at hwritten
    obtain ⟨_, -, hrest⟩ := Emit.bind_result_ok hwritten
    obtain ⟨_, -, hrest⟩ := Emit.bind_result_ok hrest
    obtain ⟨_, -, hrest⟩ := Emit.bind_result_ok hrest
    obtain ⟨_, -, hrest⟩ := Emit.bind_result_ok hrest
    obtain ⟨_, hbody, -⟩ := Emit.bind_result_ok hrest
    exact hbody
  obtain ⟨value, hvalue⟩ := exists_setValue hbody
  refine ⟨value, linesOf channel (s.writePredicate channel), hvalue, ?_, ?_⟩
  · intro hsome
    have hgiven : (textOf s.raw.predicate).isEmpty = false := by
      by_contra hempty
      exact hsome (writePredicate_of_empty (by simpa using hempty) channel)
    exact linesOf_writePredicate hgiven hguard
  · rw [hlines, writeBody_eq hdefined.sensible channel hvalue, Emit.linesOf_lines]

end FluentGen.Setter
