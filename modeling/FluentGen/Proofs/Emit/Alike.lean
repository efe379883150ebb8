import FluentGen.Options.Text
import FluentGen.Proofs.Emit.Collected

/-!
Outputs that differ only in the policy that an error block quotes. Steps that are alike one after
the other are alike together, and a buffer collects the same includes and, but for the quoted
policy, the same lines of them.
-/

namespace FluentGen

/-- The options with another macro, or none. -/
def FieldOptions.withMacro (o : FieldOptions) (macroKey : Option String) : FieldOptions :=
  { o with macroKey }

/-- The text that quotes the policy of a method. -/
def policyText (o : FieldOptions) : String :=
  "FieldBuilderOptions: <" ++ o.render ++ ">"

theorem isEmpty_policyText (o : FieldOptions) : (policyText o).isEmpty = false := by
  have hwords (text : String) : ("FieldBuilderOptions: <" ++ text).isEmpty = false := by
    simp
  unfold policyText
  rw [String.append_assoc, hwords]

/-- Two texts that are the same, or quote policies that differ in the macro behind some words. -/
inductive SameButPolicy (words : String) : String → String → Prop
  | same (text : String) : SameButPolicy words text text
  | policy (o : FieldOptions) (macroKey : Option String) :
    SameButPolicy words (words ++ policyText o) (words ++ policyText (o.withMacro macroKey))

/-- Two emissions that are the same but for a policy that is quoted. -/
inductive Emission.Alike : Emission → Emission → Prop
  | same (e : Emission) : Alike e e
  | line (channel : Channel) {text text' : String} (h : SameButPolicy "#error " text text') :
    Alike (.line channel text) (.line channel text')
  | log (level : Nat) {text text' : String} (h : SameButPolicy "" text text') :
    Alike (.log ⟨level, text⟩) (.log ⟨level, text'⟩)

namespace Emit

variable {α β : Type}

/-- Two steps that end the same way and whose outputs are the same but for policies. -/
structure Alike (step step' : Emit α) : Prop where
  result : step'.result = step.result
  out : List.Forall₂ Emission.Alike step.out step'.out

theorem Alike.refl (step : Emit α) : Alike step step :=
  ⟨rfl, List.forall₂_same.2 fun e _ => .same e⟩

theorem Alike.of_eq {step step' : Emit α} (h : step' = step) : Alike step step' := by
  rw [h]
  exact .refl step

theorem Alike.bind {step step' : Emit α} {next next' : α → Emit β} (h : Alike step step')
    (hnext : ∀ a, Alike (next a) (next' a)) : Alike (step >>= next) (step' >>= next') := by
  have hresult := h.result
  cases hstep : step.result with
  | error failure =>
    rw [hstep] at hresult
    have hleft : step >>= next = ⟨step.out, .error failure⟩ := by
      change Emit.bind step next = _
      unfold Emit.bind
      rw [hstep]
    have hright : step' >>= next' = ⟨step'.out, .error failure⟩ := by
      change Emit.bind step' next' = _
      unfold Emit.bind
      rw [hresult]
    rw [hleft, hright]
    exact ⟨rfl, h.out⟩
  | ok a =>
    rw [hstep] at hresult
    constructor
    · rw [result_bind, result_bind, hresult, hstep]
      exact (hnext a).result
    · rw [out_bind hstep, out_bind hresult]
      exact List.rel_append h.out (hnext a).out

theorem Alike.each {R : α → β → Prop} {step : α → Emit Unit} {step' : β → Emit Unit}
    {items : List α} {items' : List β} (h : List.Forall₂ R items items')
    (hstep : ∀ a b, R a b → Alike (step a) (step' b)) :
    Alike (Emit.each items step) (Emit.each items' step') := by
  induction h with
  | nil => exact .refl _
  | cons hfirst _ ih => exact .bind (hstep _ _ hfirst) fun _ => ih

theorem forall₂_linesTo {out out' : List Emission} (h : List.Forall₂ Emission.Alike out out')
    (c : Channel) :
    List.Forall₂ (SameButPolicy "#error ") (linesTo c out) (linesTo c out') := by
  induction h with
  | nil => exact .nil
  | @cons e _ _ _ hfirst _ ih =>
    cases hfirst with
    | same =>
      cases e with
      | needs channel operand => exact ih
      | log record => exact ih
      | line channel text =>
        by_cases hc : channel = c
        · simpa [linesTo, hc] using And.intro (SameButPolicy.same text) ih
        · simpa [linesTo, hc] using ih
    | line channel htext =>
      by_cases hc : channel = c
      · simpa [linesTo, hc] using And.intro htext ih
      · simpa [linesTo, hc] using ih
    | log level htext => exact ih

theorem needsTo_eq {out out' : List Emission} (h : List.Forall₂ Emission.Alike out out')
    (c : Channel) : needsTo c out' = needsTo c out := by
  induction h with
  | nil => rfl
  | cons hfirst _ ih =>
    cases hfirst with
    | same => simp only [needsTo, List.filterMap_cons] at ih ⊢; rw [ih]
    | line channel htext => exact ih
    | log level htext => exact ih

end Emit

namespace Builder

theorem isEmpty_error (text : String) : ("#error " ++ text).isEmpty = false := by
  simp

theorem isEmpty_of_sameButPolicy {line line' : String} (h : SameButPolicy "#error " line line') :
    line'.isEmpty = line.isEmpty := by
  cases h with
  | same => rfl
  | policy o macroKey => rw [isEmpty_error, isEmpty_error]

theorem forall₂_singleSpaced {lines lines' : List String} (afterText : Bool)
    (h : List.Forall₂ (SameButPolicy "#error ") lines lines') :
    List.Forall₂ (SameButPolicy "#error ") (singleSpaced afterText lines)
      (singleSpaced afterText lines') := by
  induction h generalizing afterText with
  | nil => exact .nil
  | cons hfirst _ ih =>
    rw [singleSpaced, singleSpaced, isEmpty_of_sameButPolicy hfirst]
    split
    · exact ih false
    · exact .cons hfirst (ih _)

theorem sameButPolicy_indented {line line' : String} (c : Channel)
    (h : SameButPolicy "#error " line line') :
    SameButPolicy (indents.get c ++ "#error ") (indented c line) (indented c line') := by
  cases h with
  | same => exact .same _
  | policy o macroKey =>
    have hwords (text : String) :
        indented c ("#error " ++ text) = indents.get c ++ "#error " ++ text := by
      rw [indented, isEmpty_error, if_neg Bool.false_ne_true, String.append_assoc]
    rw [hwords, hwords]
    exact .policy o macroKey

/-- Alike outputs are collected to the same includes, and to lines that are the same but for the
quoted policies. -/
theorem collect_alike {out out' : List Emission} (h : List.Forall₂ Emission.Alike out out')
    (buffer : Buffer) (c : Channel) :
    (collect buffer out').includes.get c = (collect buffer out).includes.get c ∧
      List.Forall₂ (SameButPolicy (indents.get c ++ "#error "))
        ((collect buffer out).lines.get c) ((collect buffer out').lines.get c) := by
  constructor
  · rw [includes_collect, includes_collect, Emit.needsTo_eq h]
  · rw [lines_collect, lines_collect]
    apply List.rel_append (List.forall₂_same.2 fun line _ => .same line)
    unfold laidOut
    rw [List.forall₂_map_left_iff, List.forall₂_map_right_iff]
    apply (forall₂_singleSpaced false (Emit.forall₂_linesTo h c)).imp
    intro line line' hline
    exact sameButPolicy_indented c hline

end Builder

end FluentGen
