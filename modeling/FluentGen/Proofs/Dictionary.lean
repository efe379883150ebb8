import FluentGen.Dictionary
import FluentGen.Proofs.KeyMap

/-!
Values that are set in a scope of a dictionary. They are found there, whatever the scope had before
and whatever is around it.
-/

namespace FluentGen.Dictionary

theorem scopes_setValues (d : Dictionary) (scope : Nat) (values : List (String × String)) :
    (d.setValues scope values).scopes =
      d.scopes.modify scope fun s => { s with values := s.values.addAll values } := by
  induction values generalizing d with
  | nil => exact (List.modify_id scope d.scopes).symm
  | cons v rest ih =>
    have hstep : d.setValues scope (v :: rest) = (d.setValue scope v.1 v.2).setValues scope rest :=
      rfl
    rw [hstep, ih]
    exact List.modify_modify_eq _ _ _ _

/-- A value that is found among others, after whatever was there before, is the one in the scope
where they have been set. -/
theorem value_setValues {d : Dictionary} {scope : Nat} (hscope : scope < d.scopes.length)
    {values : List (String × String)} {name value : String}
    (h : ∀ map : KeyMap String, (map.addAll values).get? name = some value) :
    (d.setValues scope values).value scope name = value := by
  have hset : (d.setValues scope values).scopes[scope]? =
      some { d.scopes[scope] with values := d.scopes[scope].values.addAll values } := by
    rw [scopes_setValues, List.getElem?_modify_eq, List.getElem?_eq_getElem hscope]
    rfl
  have hlength : (d.setValues scope values).scopes.length = d.scopes.length := by
    rw [scopes_setValues, List.length_modify]
  obtain ⟨depth, hdepth⟩ := Nat.exists_eq_add_of_lt hscope
  rw [Dictionary.value, hlength, hdepth, valueFrom, hset]
  simp only [h]

end FluentGen.Dictionary
