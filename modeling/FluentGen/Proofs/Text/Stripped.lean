import FluentGen.Text.Basic

/-!
What is left of a text without its beginning or its end.
-/

namespace FluentGen.Text

theorem append_of_afterStart? {start text rest : List Char}
    (h : afterStart? start text = some rest) : text = start ++ rest := by
  induction start generalizing text with
  | nil => exact Option.some.inj h
  | cons s start ih =>
    cases text with
    | nil => cases h
    | cons c text =>
      unfold afterStart? at h
      split at h
      · next heq => rw [heq, ih h, List.cons_append]
      · cases h

theorem afterStart?_eq_some_iff {start text rest : List Char} :
    afterStart? start text = some rest ↔ text = start ++ rest := by
  constructor
  · exact append_of_afterStart?
  · rintro rfl
    induction start with
    | nil => rfl
    | cons s start ih => rw [List.cons_append, afterStart?, if_pos rfl, ih]

theorem afterStart?_eq (start text : List Char) :
    afterStart? start text =
      if start.isPrefixOf text then some (text.drop start.length) else none := by
  split
  · next hprefix =>
    obtain ⟨rest, rfl⟩ := List.isPrefixOf_iff_prefix.1 hprefix
    rw [afterStart?_eq_some_iff, List.drop_left]
  · next hprefix =>
    rw [Option.eq_none_iff_forall_not_mem]
    intro rest hrest
    rw [List.isPrefixOf_iff_prefix] at hprefix
    exact hprefix ⟨rest, (afterStart?_eq_some_iff.1 hrest).symm⟩

theorem stripStart?_eq_some_iff {start text rest : String} :
    stripStart? start text = some rest ↔ text = start ++ rest := by
  rw [stripStart?, Option.map_eq_some_iff, ← String.toList_inj, String.toList_append]
  constructor
  · rintro ⟨chars, hchars, rfl⟩
    rw [String.toList_ofList]
    exact afterStart?_eq_some_iff.1 hchars
  · intro h
    exact ⟨rest.toList, afterStart?_eq_some_iff.2 h, String.ofList_toList⟩

theorem stripEnd?_eq_some_iff {ending text front : String} :
    stripEnd? ending text = some front ↔ text = front ++ ending := by
  rw [stripEnd?, Option.map_eq_some_iff, ← String.toList_inj, String.toList_append]
  constructor
  · rintro ⟨chars, hchars, rfl⟩
    have hback := congrArg List.reverse (afterStart?_eq_some_iff.1 hchars)
    simpa using hback
  · intro h
    refine ⟨front.toList.reverse, afterStart?_eq_some_iff.2 ?_, by simp⟩
    rw [h, List.reverse_append]

end FluentGen.Text
