import FluentGen.Proofs.Name.Style
import Mathlib.Data.List.Chain
import Mathlib.Data.List.Infix

/-!
What snake case keeps of a name. The letters and digits come through in order, and of what stands
between two of them at most one underscore is left. It is left in two cases: where something else
stood between them, and where a capital follows a small letter or digit. A text in snake case stays
as it is.
-/

namespace FluentGen.Name

/-- ASCII letters and digits, which the words of a name are made of. -/
def isLetterOrDigit (c : Char) : Bool :=
  isCapital c || isSmallOrDigit c

/-- The letters and digits of a name, in order. -/
def letters (name : List Char) : List Char :=
  name.filter isLetterOrDigit

/-- What is left between two letters or digits of a name of what stands between them. -/
def wordBreak (c : Char) (gap : List Char) (d : Char) : List Char :=
  if gap = [] then if isSmallOrDigit c && isCapital d then ['_'] else [] else ['_']

section Characters

variable {c : Char}

theorem toNat_of_isCapital (h : isCapital c = true) : ∃ n : Fin 26, c = Char.ofNat (65 + n) := by
  rw [isCapital, Bool.and_eq_true, decide_eq_true_eq, decide_eq_true_eq] at h
  have hfirst : 65 ≤ c.toNat := h.1
  have hlast : c.toNat ≤ 90 := h.2
  refine ⟨⟨c.toNat - 65, by omega⟩, ?_⟩
  rw [Nat.add_sub_cancel' hfirst, Char.ofNat_toNat]

theorem isSmallOrDigit_of_isCapital (h : isCapital c = true) :
    isSmallOrDigit c = false ∧ isSmallOrDigit c.toLower = true := by
  obtain ⟨n, rfl⟩ := toNat_of_isCapital h
  revert n
  decide

theorem toLower_of_isSmallOrDigit (h : isSmallOrDigit c = true) : c.toLower = c := by
  rw [isSmallOrDigit, Bool.or_eq_true, Bool.and_eq_true, Bool.and_eq_true] at h
  refine dif_neg ?_
  rintro ⟨hfirst, hlast⟩
  rcases h with ⟨hsmall, -⟩ | ⟨-, hdigit⟩
  · have hle : 97 ≤ c.toNat := of_decide_eq_true hsmall
    have hge : c.toNat ≤ 90 := hlast
    omega
  · have hle : c.toNat ≤ 57 := of_decide_eq_true hdigit
    have hge : 65 ≤ c.toNat := hfirst
    omega

theorem isSmallOrDigit_toLower (h : isLetterOrDigit c = true) :
    isSmallOrDigit c.toLower = true := by
  rcases Bool.or_eq_true_iff.1 h with hcapital | hsmall
  · exact (isSmallOrDigit_of_isCapital hcapital).2
  · rwa [toLower_of_isSmallOrDigit hsmall]

theorem isCapital_of_isSmallOrDigit (h : isSmallOrDigit c = true) : isCapital c = false := by
  rw [Bool.eq_false_iff]
  intro hcapital
  rw [(isSmallOrDigit_of_isCapital hcapital).1] at h
  cases h

theorem isLetterOrDigit_of_isSmallOrDigit (h : isSmallOrDigit c = true) :
    isLetterOrDigit c = true := by
  rw [isLetterOrDigit, h, Bool.or_true]

theorem letters_append (text more : List Char) :
    letters (text ++ more) = letters text ++ letters more :=
  List.filter_append _ _

theorem letters_mark (b : Bool) : letters (if b then ['_'] else []) = [] := by
  cases b <;> rfl

end Characters

section Steps

variable {state : SnakeState} {c : Char}

/-- A letter or digit is written, behind an underscore if it begins a word. -/
theorem snakeStep_letter (h : isLetterOrDigit c = true) :
    snakeStep state c =
      ((if isCapital c && state.newWord then ['_'] else []) ++ [c.toLower],
        ⟨true, false, isSmallOrDigit c⟩) := by
  unfold snakeStep
  rcases Bool.or_eq_true_iff.1 h with hcapital | hsmall
  · rw [if_pos hcapital, hcapital, (isSmallOrDigit_of_isCapital hcapital).1, Bool.true_and]
  · rw [isCapital_of_isSmallOrDigit hsmall, if_neg Bool.false_ne_true, if_pos hsmall, hsmall,
      toLower_of_isSmallOrDigit hsmall]
    rfl

/-- Whether a separator is written: not behind another one, and at the start only an underscore. -/
def writesSeparator (state : SnakeState) (c : Char) : Bool :=
  if state.started then !state.afterUnderscore else c == '_'

theorem snakeStep_separator (h : isLetterOrDigit c = false) :
    snakeStep state c =
      (if writesSeparator state c then ['_'] else [],
        ⟨state.started || writesSeparator state c, true, false⟩) := by
  obtain ⟨hcapital, hsmall⟩ := Bool.or_eq_false_iff.1 h
  unfold snakeStep
  rw [hcapital, hsmall, if_neg Bool.false_ne_true, if_neg Bool.false_ne_true]
  rfl

theorem snakeFrom_cons (state : SnakeState) (c : Char) (rest : List Char) :
    snakeFrom state (c :: rest) =
      (snakeStep state c).1 ++ snakeFrom (snakeStep state c).2 rest := rfl

/-- The state behind a text. -/
def snakeAfter (state : SnakeState) : List Char → SnakeState
  | [] => state
  | c :: rest => snakeAfter (snakeStep state c).2 rest

theorem snakeFrom_append (state : SnakeState) (text more : List Char) :
    snakeFrom state (text ++ more) =
      snakeFrom state text ++ snakeFrom (snakeAfter state text) more := by
  induction text generalizing state with
  | nil => rfl
  | cons c rest ih =>
    rw [List.cons_append, snakeFrom_cons, snakeFrom_cons, ih, List.append_assoc]
    rfl

end Steps

section Runs

variable {state : SnakeState}

theorem letters_snakeStep (state : SnakeState) (c : Char) :
    letters (snakeStep state c).1 = (letters [c]).map Char.toLower := by
  cases hc : isLetterOrDigit c with
  | true =>
    have hlower := isLetterOrDigit_of_isSmallOrDigit (isSmallOrDigit_toLower hc)
    rw [snakeStep_letter hc, letters_append, letters_mark]
    simp [letters, hc, hlower]
  | false =>
    rw [snakeStep_separator hc, letters_mark]
    simp [letters, hc]

/-- The letters and digits come through in order and in lower case. -/
theorem letters_snakeFrom (state : SnakeState) (text : List Char) :
    letters (snakeFrom state text) = (letters text).map Char.toLower := by
  induction text generalizing state with
  | nil => rfl
  | cons c rest ih =>
    rw [snakeFrom_cons, letters_append, letters_snakeStep, ih, ← List.map_append,
      ← letters_append]
    rfl

theorem chars_snakeFrom (state : SnakeState) (text : List Char) :
    ∀ c ∈ snakeFrom state text, isSmallOrDigit c = true ∨ c = '_' := by
  induction text generalizing state with
  | nil => exact List.forall_mem_nil _
  | cons c rest ih =>
    rw [snakeFrom_cons]
    refine List.forall_mem_append.2 ⟨?_, ih _⟩
    have hmark : ∀ (b : Bool), ∀ d ∈ (if b then ['_'] else []),
        isSmallOrDigit d = true ∨ d = '_' := by
      intro b d hd
      cases b with
      | false => exact absurd hd List.not_mem_nil
      | true => exact .inr (List.mem_singleton.1 hd)
    cases hc : isLetterOrDigit c with
    | true =>
      rw [snakeStep_letter hc]
      refine List.forall_mem_append.2 ⟨hmark _, ?_⟩
      intro d hd
      rw [List.mem_singleton.1 hd]
      exact Or.inl (isSmallOrDigit_toLower hc)
    | false =>
      rw [snakeStep_separator hc]
      exact hmark _

/-- Behind an underscore no other one is written. -/
theorem head?_snakeFrom {text : List Char} {c : Char}
    (h : (snakeFrom ⟨true, true, false⟩ text).head? = some c) : c ≠ '_' := by
  induction text with
  | nil => cases h
  | cons d rest ih =>
    rw [snakeFrom_cons] at h
    cases hd : isLetterOrDigit d with
    | true =>
      rw [snakeStep_letter hd, Bool.and_false] at h
      cases h
      exact ne_underscore_of_isSmallOrDigit (isSmallOrDigit_toLower hd)
    | false =>
      rw [snakeStep_separator hd] at h
      exact ih h

theorem isChain_snakeFrom (state : SnakeState) (text : List Char) :
    (snakeFrom state text).IsChain fun c d => c ≠ '_' ∨ d ≠ '_' := by
  induction text generalizing state with
  | nil => exact List.isChain_nil
  | cons c rest ih =>
    rw [snakeFrom_cons]
    cases hc : isLetterOrDigit c with
    | true =>
      have hlower := ne_underscore_of_isSmallOrDigit (isSmallOrDigit_toLower hc)
      have hletter : (c.toLower :: snakeFrom ⟨true, false, isSmallOrDigit c⟩ rest).IsChain
          fun c d => c ≠ '_' ∨ d ≠ '_' :=
        List.isChain_cons.2 ⟨fun _ _ => Or.inl hlower, ih _⟩
      rw [snakeStep_letter hc, List.append_assoc]
      split
      · exact List.isChain_cons_cons.2 ⟨Or.inr hlower, hletter⟩
      · exact hletter
    | false =>
      rw [snakeStep_separator hc]
      cases hwritten : writesSeparator state c with
      | true =>
        rw [Bool.or_true]
        exact List.isChain_cons.2 ⟨fun d hd => Or.inr (head?_snakeFrom hd), ih _⟩
      | false => exact ih _

/-- Behind a letter or digit, up to the next one: what is left of the separators, and that one. -/
theorem snakeFrom_wordBreak {c d : Char} {gap : List Char}
    (hgap : ∀ x ∈ gap, isLetterOrDigit x = false) (hd : isLetterOrDigit d = true)
    (after : List Char) :
    snakeFrom ⟨true, false, isSmallOrDigit c⟩ (gap ++ d :: after) =
      wordBreak c gap d ++ d.toLower :: snakeFrom ⟨true, false, isSmallOrDigit d⟩ after := by
  have hdropped : ∀ gap : List Char, (∀ x ∈ gap, isLetterOrDigit x = false) →
      snakeFrom ⟨true, true, false⟩ (gap ++ d :: after) =
        d.toLower :: snakeFrom ⟨true, false, isSmallOrDigit d⟩ after := by
    intro gap hgap
    induction gap with
    | nil =>
      rw [List.nil_append, snakeFrom_cons, snakeStep_letter hd, Bool.and_false]
      rfl
    | cons x rest ih =>
      rw [List.cons_append, snakeFrom_cons, snakeStep_separator (hgap x List.mem_cons_self)]
      exact ih fun y hy => hgap y (List.mem_cons_of_mem x hy)
  cases gap with
  | nil =>
    rw [List.nil_append, snakeFrom_cons, snakeStep_letter hd, Bool.and_comm, List.append_assoc]
    rfl
  | cons x rest =>
    rw [List.cons_append, snakeFrom_cons, snakeStep_separator (hgap x List.mem_cons_self),
      Bool.true_or, hdropped rest fun y hy => hgap y (List.mem_cons_of_mem x hy)]
    rfl

/-- Two letters or digits with separators between them, wherever they stand. -/
theorem snakeFrom_between {c d : Char} {gap : List Char} (hc : isLetterOrDigit c = true)
    (hgap : ∀ x ∈ gap, isLetterOrDigit x = false) (hd : isLetterOrDigit d = true)
    (before after : List Char) :
    ∃ front back,
      snakeFrom state (before ++ c :: gap ++ d :: after) =
        front ++ c.toLower :: wordBreak c gap d ++ d.toLower :: back ∧
      letters front = (letters before).map Char.toLower ∧
      letters back = (letters after).map Char.toLower := by
  -- The underscore that `c` may have in front of it belongs to what stands before.
  let mark := if isCapital c && (snakeAfter state before).newWord then ['_'] else []
  have hmark : letters mark = [] := letters_mark _
  refine ⟨snakeFrom state before ++ mark, snakeFrom ⟨true, false, isSmallOrDigit d⟩ after, ?_, ?_,
    letters_snakeFrom _ _⟩
  · calc snakeFrom state (before ++ c :: gap ++ d :: after)
        = snakeFrom state before ++
            snakeFrom (snakeAfter state before) (c :: (gap ++ d :: after)) := by
          rw [List.append_assoc, snakeFrom_append, List.cons_append]
      _ = snakeFrom state before ++ (mark ++ [c.toLower] ++
            (wordBreak c gap d ++
              d.toLower :: snakeFrom ⟨true, false, isSmallOrDigit d⟩ after)) := by
          rw [snakeFrom_cons, snakeStep_letter hc, snakeFrom_wordBreak hgap hd]
      _ = _ := by simp only [List.append_assoc, List.cons_append, List.nil_append]
  · rw [letters_append, hmark, List.append_nil, letters_snakeFrom]

-- The induction is on the text. The first character is written as it is, and if it is an underscore
-- the next one is none, so the condition on the state holds again.
/-- A text in snake case stays as it is. -/
theorem snakeFrom_of_snake {text : List Char}
    (hchars : ∀ c ∈ text, isSmallOrDigit c = true ∨ c = '_')
    (hsingle : text.IsChain fun c d => c ≠ '_' ∨ d ≠ '_')
    (hstate : state.started = true → state.afterUnderscore = true → text.head? ≠ some '_') :
    snakeFrom state text = text := by
  induction text generalizing state with
  | nil => rfl
  | cons c rest ih =>
    have hrest : ∀ d ∈ rest, isSmallOrDigit d = true ∨ d = '_' :=
      fun d hd => hchars d (List.mem_cons_of_mem c hd)
    obtain ⟨hnext, hbehind⟩ := List.isChain_cons.1 hsingle
    rw [snakeFrom_cons]
    rcases hchars c List.mem_cons_self with hsmall | rfl
    · rw [snakeStep_letter (isLetterOrDigit_of_isSmallOrDigit hsmall),
        isCapital_of_isSmallOrDigit hsmall, toLower_of_isSmallOrDigit hsmall,
        ih hrest hbehind fun _ hafter => absurd hafter Bool.false_ne_true]
      rfl
    · have hwritten : writesSeparator state '_' = true := by
        unfold writesSeparator
        split
        · next hstarted =>
          rw [Bool.not_eq_true', Bool.eq_false_iff]
          intro hafter
          exact hstate hstarted hafter rfl
        · rfl
      rw [snakeStep_separator (by decide), hwritten, ih hrest hbehind]
      · rfl
      · intro _ _ hhead
        exact (hnext '_' hhead).elim (fun h => h rfl) (fun h => h rfl)

end Runs

/-- A name in snake case consists of small letters, digits and underscores, no two of which follow
each other. Its letters and digits are those of the name. Between two of them an underscore is left
exactly where something else stood between them or a capital follows a small letter or digit.
Changing it again changes nothing. -/
theorem snakeCase_spelling (name : String) :
    (∀ c ∈ (snakeCase name).toList, isSmallOrDigit c = true ∨ c = '_') ∧
      ¬ ['_', '_'] <:+: (snakeCase name).toList ∧
      letters (snakeCase name).toList = (letters name.toList).map Char.toLower ∧
      (∀ before c gap d after, name.toList = before ++ c :: gap ++ d :: after →
        isLetterOrDigit c = true → (∀ x ∈ gap, isLetterOrDigit x = false) →
        isLetterOrDigit d = true →
        ∃ front back,
          (snakeCase name).toList =
            front ++ c.toLower :: wordBreak c gap d ++ d.toLower :: back ∧
          letters front = (letters before).map Char.toLower ∧
          letters back = (letters after).map Char.toLower) ∧
      snakeCase (snakeCase name) = snakeCase name := by
  have htext : (snakeCase name).toList = snakeFrom ⟨false, false, false⟩ name.toList :=
    String.toList_ofList
  have hchars := chars_snakeFrom ⟨false, false, false⟩ name.toList
  have hsingle := isChain_snakeFrom ⟨false, false, false⟩ name.toList
  rw [htext]
  refine ⟨hchars, ?_, letters_snakeFrom _ _, ?_, ?_⟩
  · intro hdouble
    have hpair := hsingle.infix hdouble
    rw [List.isChain_cons_cons] at hpair
    exact hpair.1.elim (fun h => h rfl) (fun h => h rfl)
  · intro before c gap d after hname hc hgap hd
    rw [hname]
    exact snakeFrom_between hc hgap hd before after
  · apply String.toList_injective
    rw [snakeCase, String.toList_ofList, htext]
    exact snakeFrom_of_snake hchars hsingle fun hstarted => absurd hstarted Bool.false_ne_true

/-- A scoped name with a leading underscore, several separators in a row, and a capital behind one
of them and behind a digit. -/
theorem snakeCase_spelling_scoped :
    "_x::_Y2Z".toList = "_".toList ++ 'x' :: "::_".toList ++ 'Y' :: "2Z".toList ∧
      ∃ front back,
        (snakeCase "_x::_Y2Z").toList =
          front ++ 'x'.toLower :: wordBreak 'x' "::_".toList 'Y' ++ 'Y'.toLower :: back ∧
        letters front = (letters "_".toList).map Char.toLower ∧
        letters back = (letters "2Z".toList).map Char.toLower := by
  have hgap : ∀ x ∈ "::_".toList, isLetterOrDigit x = false := by
    intro x hx
    have hmem : x = ':' ∨ x = '_' := by simpa using hx
    rcases hmem with rfl | rfl <;> rfl
  exact ⟨rfl, (snakeCase_spelling "_x::_Y2Z").2.2.2.1 "_".toList 'x' "::_".toList 'Y' "2Z".toList
    rfl rfl hgap rfl⟩

example : snakeCase "_x::_Y2Z" = "_x_y2_z" := by decide

end FluentGen.Name
