import FluentGen.Proofs.Emit.Collected
import Mathlib.Data.List.Chain

/-!
What is left of lines of which only single empty ones are kept. Nothing but empty lines is dropped,
none stands at the start or behind another one, and between two lines of text there is one exactly
where there was one before.
-/

namespace FluentGen.Builder

theorem singleSpaced_sublist (afterText : Bool) (lines : List String) :
    (singleSpaced afterText lines).Sublist lines := by
  induction lines generalizing afterText with
  | nil => exact List.Sublist.refl _
  | cons line rest ih =>
    unfold singleSpaced
    split
    · exact (ih false).cons line
    · exact (ih _).cons_cons line

/-- What is kept behind an empty line does not begin with another one. -/
theorem head?_singleSpaced {lines : List String} {line : String}
    (h : (singleSpaced false lines).head? = some line) : line ≠ "" := by
  induction lines with
  | nil => cases h
  | cons first rest ih =>
    unfold singleSpaced at h
    split at h
    · exact ih h
    · next hkept =>
      rw [List.head?_cons] at h
      rw [← Option.some.inj h]
      simpa using hkept

theorem isChain_singleSpaced (afterText : Bool) (lines : List String) :
    (singleSpaced afterText lines).IsChain fun a b => a ≠ "" ∨ b ≠ "" := by
  induction lines generalizing afterText with
  | nil => exact List.isChain_nil
  | cons line rest ih =>
    unfold singleSpaced
    split
    · exact ih false
    · refine List.isChain_cons.2 ⟨?_, ih _⟩
      intro next hnext
      by_cases hline : line = ""
      · subst hline
        exact Or.inr (head?_singleSpaced hnext)
      · exact Or.inl hline

theorem singleSpaced_of_empty {lines : List String} (h : ∀ line ∈ lines, line = "") :
    singleSpaced false lines = [] := by
  induction lines with
  | nil => rfl
  | cons line rest ih =>
    have hline : line = "" := h line List.mem_cons_self
    subst hline
    exact ih fun line hline => h line (List.mem_cons_of_mem _ hline)

theorem singleSpaced_cons_of_text {line : String} (h : line ≠ "") (afterText : Bool)
    (rest : List String) :
    singleSpaced afterText (line :: rest) = line :: singleSpaced true rest := by
  have hkept : line.isEmpty = false := by simpa using h
  rw [singleSpaced, hkept]
  rfl

/-- The lines with something in them. -/
def textsOf (lines : List String) : List String :=
  lines.filter fun line => !line.isEmpty

theorem textsOf_append (lines more : List String) :
    textsOf (lines ++ more) = textsOf lines ++ textsOf more :=
  List.filter_append _ _

/-- Nothing but empty lines is dropped. -/
theorem textsOf_singleSpaced (afterText : Bool) (lines : List String) :
    textsOf (singleSpaced afterText lines) = textsOf lines := by
  induction lines generalizing afterText with
  | nil => rfl
  | cons line rest ih =>
    unfold singleSpaced
    split
    · next hdropped =>
      have hempty : line.isEmpty = true := (Bool.and_eq_true_iff.1 hdropped).1
      rw [ih, textsOf, textsOf, List.filter_cons_of_neg (by simp [hempty])]
    · rw [← List.singleton_append, textsOf_append, ih, ← textsOf_append]
      rfl

/-- Whether text stands right in front of what follows the lines. -/
def textAbove (afterText : Bool) : List String → Bool
  | [] => afterText
  | line :: rest => textAbove (!line.isEmpty) rest

theorem singleSpaced_append (afterText : Bool) (lines more : List String) :
    singleSpaced afterText (lines ++ more) =
      singleSpaced afterText lines ++ singleSpaced (textAbove afterText lines) more := by
  induction lines generalizing afterText with
  | nil => rfl
  | cons line rest ih =>
    rw [List.cons_append, singleSpaced, singleSpaced, textAbove]
    split
    · next hdropped =>
      rw [ih, (Bool.and_eq_true_iff.1 hdropped).1]
      rfl
    · rw [ih, List.cons_append]

theorem textAbove_of_empty {lines : List String} (h : ∀ line ∈ lines, line = "") :
    textAbove false lines = false := by
  induction lines with
  | nil => rfl
  | cons line rest ih =>
    rw [textAbove, h line List.mem_cons_self]
    exact ih fun other hother => h other (List.mem_cons_of_mem _ hother)

/-- Between two lines of text one empty line is left, if there was one. -/
theorem singleSpaced_between {first second : String} {gap : List String}
    (hfirst : first ≠ "") (hgap : ∀ line ∈ gap, line = "") (hsecond : second ≠ "")
    (afterText : Bool) (before after : List String) :
    singleSpaced afterText (before ++ first :: gap ++ second :: after) =
      singleSpaced afterText before ++ first :: (if gap = [] then [] else [""]) ++
        second :: singleSpaced true after := by
  have hbehind : singleSpaced true (gap ++ second :: after) =
      (if gap = [] then [] else [""]) ++ second :: singleSpaced true after := by
    cases gap with
    | nil => exact singleSpaced_cons_of_text hsecond true after
    | cons line rest =>
      have hrest : ∀ line ∈ rest, line = "" := fun l hl => hgap l (List.mem_cons_of_mem line hl)
      have hmore : singleSpaced false (rest ++ second :: after) =
          second :: singleSpaced true after := by
        rw [singleSpaced_append, singleSpaced_of_empty hrest, textAbove_of_empty hrest,
          singleSpaced_cons_of_text hsecond]
        rfl
      rw [hgap line List.mem_cons_self, List.cons_append]
      exact congrArg ("" :: ·) hmore
  rw [List.append_assoc, singleSpaced_append, List.cons_append, singleSpaced_cons_of_text hfirst,
    hbehind]
  simp only [List.append_assoc, List.cons_append]

end FluentGen.Builder
