import FluentGen.Text.Basic
import Mathlib.Data.List.Infix

/-!
Lines and the text that they make. A text is split where its line breaks are, so its lines have none,
and a run of line breaks in the text is a run of empty lines.
-/

namespace FluentGen.Text

section Splitting

variable {sep : Char}

theorem not_mem_of_mem_splitChars {text piece : List Char} (h : piece ∈ splitChars sep text) :
    sep ∉ piece := by
  induction text generalizing piece with
  | nil =>
    rw [List.mem_singleton.1 h]
    exact List.not_mem_nil
  | cons c rest ih =>
    unfold splitChars at h
    split at h
    · rcases List.mem_cons.1 h with rfl | hrest
      · exact List.not_mem_nil
      · exact ih hrest
    · next hc =>
      split at h
      · rw [List.mem_singleton.1 h]
        simpa using Ne.symm hc
      · next first pieces heq =>
        rcases List.mem_cons.1 h with rfl | hrest
        · have hfirst : sep ∉ first := ih (heq ▸ List.mem_cons_self)
          exact List.not_mem_cons_of_ne_of_not_mem (Ne.symm hc) hfirst
        · exact ih (heq ▸ List.mem_cons_of_mem _ hrest)

theorem mem_of_mem_splitChars {text piece : List Char} {c : Char} (h : piece ∈ splitChars sep text)
    (hc : c ∈ piece) : c ∈ text := by
  induction text generalizing piece with
  | nil =>
    rw [List.mem_singleton.1 h] at hc
    exact hc
  | cons d rest ih =>
    unfold splitChars at h
    split at h
    · rcases List.mem_cons.1 h with rfl | hrest
      · cases hc
      · exact List.mem_cons_of_mem d (ih hrest hc)
    · split at h
      · rw [List.mem_singleton.1 h, List.mem_singleton] at hc
        exact hc ▸ List.mem_cons_self
      · next first pieces heq =>
        rcases List.mem_cons.1 h with rfl | hrest
        · rcases List.mem_cons.1 hc with rfl | hfirst
          · exact List.mem_cons_self
          · exact List.mem_cons_of_mem d (ih (heq ▸ List.mem_cons_self) hfirst)
        · exact List.mem_cons_of_mem d (ih (heq ▸ List.mem_cons_of_mem _ hrest) hc)

theorem splitChars_cons_of_ne {c : Char} (hc : c ≠ sep) (rest : List Char) :
    ∃ piece pieces, splitChars sep (c :: rest) = (c :: piece) :: pieces := by
  rw [splitChars, if_neg hc]
  split
  · exact ⟨[], [], rfl⟩
  · next piece pieces _ => exact ⟨piece, pieces, rfl⟩

/-- All pieces of a text are empty exactly if it has nothing but separators. -/
theorem splitChars_blank_iff {text : List Char} :
    (∀ piece ∈ splitChars sep text, piece = []) ↔ ∀ c ∈ text, c = sep := by
  induction text with
  | nil => simp [splitChars]
  | cons c rest ih =>
    rw [List.forall_mem_cons]
    by_cases hc : c = sep
    · rw [splitChars, if_pos hc, List.forall_mem_cons, ih]
      simp [hc]
    · obtain ⟨piece, pieces, hpieces⟩ := splitChars_cons_of_ne hc rest
      rw [hpieces, List.forall_mem_cons]
      simp [hc]

theorem splitChars_append {piece : List Char} (h : sep ∉ piece) (rest : List Char) :
    splitChars sep (piece ++ sep :: rest) = piece :: splitChars sep rest := by
  induction piece with
  | nil => simp [splitChars]
  | cons c piece ih =>
    have hc : c ≠ sep := fun heq => h (heq ▸ List.mem_cons_self)
    have hpiece : sep ∉ piece := fun hmem => h (List.mem_cons_of_mem _ hmem)
    rw [List.cons_append, splitChars, if_neg hc, ih hpiece]

theorem splitChars_ne_nil (sep : Char) (text : List Char) : splitChars sep text ≠ [] := by
  fun_cases splitChars sep text <;> simp_all

/-- The pieces, joined again, are the text. -/
theorem intercalate_splitChars (sep : Char) (text : List Char) :
    [sep].intercalate (splitChars sep text) = text := by
  induction text with
  | nil => rfl
  | cons c rest ih =>
    cases hpieces : splitChars sep rest with
    | nil => exact absurd hpieces (splitChars_ne_nil sep rest)
    | cons piece pieces =>
      rw [hpieces] at ih
      rw [splitChars, hpieces]
      split
      · next hc =>
        rw [List.intercalate_cons_cons, ih, hc]
        rfl
      · cases pieces with
        | nil =>
          rw [List.intercalate_singleton] at ih ⊢
          rw [ih]
        | cons next pieces =>
          rw [List.intercalate_cons_cons] at ih ⊢
          rw [← ih]
          simp

theorem intercalate_split (sep : Char) (text : String) :
    (String.singleton sep).intercalate (split sep text) = text := by
  apply String.toList_injective
  rw [String.toList_intercalate, split, List.map_map]
  have hpieces : (splitChars sep text.toList).map (String.toList ∘ String.ofList) =
      splitChars sep text.toList := by simp
  rw [hpieces, String.toList_singleton, intercalate_splitChars]

theorem cutChars_append {piece : List Char} (h : sep ∉ piece) (rest : List Char) :
    cutChars sep (piece ++ sep :: rest) = (piece, some rest) := by
  induction piece with
  | nil => simp [cutChars]
  | cons c piece ih =>
    have hc : c ≠ sep := fun heq => h (heq ▸ List.mem_cons_self)
    have hpiece : sep ∉ piece := fun hmem => h (List.mem_cons_of_mem _ hmem)
    rw [List.cons_append, cutChars, if_neg hc, ih hpiece]

theorem append_of_cutChars {text before after : List Char}
    (h : cutChars sep text = (before, some after)) :
    sep ∉ before ∧ text = before ++ sep :: after := by
  induction text generalizing before with
  | nil => cases h
  | cons c rest ih =>
    unfold cutChars at h
    split at h
    · next hc =>
      cases h
      exact ⟨List.not_mem_nil, by rw [hc, List.nil_append]⟩
    · next hc =>
      obtain ⟨rfl, hafter⟩ := Prod.mk.inj h
      obtain ⟨hbefore, hrest⟩ := ih (Prod.ext rfl hafter)
      exact ⟨List.not_mem_cons_of_ne_of_not_mem (Ne.symm hc) hbefore,
        by rw [List.cons_append, ← hrest]⟩

/-- A text is cut where its first separator stands. -/
theorem cut_eq_some_iff {text before after : String} :
    cut sep text = (before, some after) ↔
      sep ∉ before.toList ∧ text = before ++ String.singleton sep ++ after := by
  rw [← String.toList_inj, cut]
  constructor
  · intro h
    obtain ⟨hbefore, hafter⟩ := Prod.mk.inj h
    obtain ⟨rest, hrest, rfl⟩ := Option.map_eq_some_iff.1 hafter
    subst hbefore
    have hcut := append_of_cutChars (Prod.ext rfl hrest)
    simpa using hcut
  · rintro ⟨hbefore, htext⟩
    have hchars : text.toList = before.toList ++ sep :: after.toList := by
      simpa using htext
    rw [hchars, cutChars_append hbefore]
    simp
/-- Where the first separator is, is in the text. -/
theorem append_separator_inj {piece other rest more : List Char} (hpiece : sep ∉ piece)
    (hother : sep ∉ other) (h : piece ++ sep :: rest = other ++ sep :: more) :
    piece = other ∧ rest = more := by
  have hcut := congrArg (cutChars sep) h
  rw [cutChars_append hpiece, cutChars_append hother] at hcut
  obtain ⟨hbefore, hafter⟩ := Prod.mk.inj hcut
  exact ⟨hbefore, Option.some.inj hafter⟩

theorem cutLast_append {last : String} (h : sep ∉ last.toList) (before : String) :
    cutLast sep (before ++ String.singleton sep ++ last) = (before, last) := by
  have hchars : (before ++ String.singleton sep ++ last).toList.reverse =
      last.toList.reverse ++ sep :: before.toList.reverse := by
    simp [String.toList_append]
  unfold cutLast
  rw [hchars, cutChars_append (by simpa using h)]
  simp

theorem cutLast_of_not_mem {text : String} (h : sep ∉ text.toList) : (cutLast sep text).1 = "" := by
  have hcut : ∀ chars : List Char, sep ∉ chars → (cutChars sep chars).2 = none := by
    intro chars hchars
    induction chars with
    | nil => rfl
    | cons c chars ih =>
      have hc : c ≠ sep := fun heq => hchars (heq ▸ List.mem_cons_self)
      rw [cutChars, if_neg hc]
      exact ih fun hmem => hchars (List.mem_cons_of_mem _ hmem)
  have hnone := hcut text.toList.reverse (by simpa using h)
  unfold cutLast
  split
  · next heq =>
    rw [heq] at hnone
    cases hnone
  · rfl

end Splitting

/-- A line of a text. -/
def IsLine (line : String) : Prop := '\n' ∉ line.toList

theorem isLine_of_mem_lines {text line : String} (h : line ∈ lines text) : IsLine line := by
  obtain ⟨piece, hpiece, rfl⟩ := List.mem_map.1 h
  rw [IsLine, String.toList_ofList]
  exact not_mem_of_mem_splitChars hpiece

theorem lines_append {line : String} (h : IsLine line) (rest : String) :
    lines (line ++ "\n" ++ rest) = line :: lines rest := by
  unfold lines split
  have hchars : (line ++ "\n" ++ rest).toList = line.toList ++ '\n' :: rest.toList := by
    simp
  rw [hchars, splitChars_append h, List.map_cons, String.ofList_toList]

section Joining

theorem unlines_cons_cons (first second : String) (rest : List String) :
    unlines (first :: second :: rest) = first ++ "\n" ++ unlines (second :: rest) :=
  String.intercalate_cons_cons

theorem unlines_concat {lines : List String} (h : lines ≠ []) (last : String) :
    unlines (lines ++ [last]) = unlines lines ++ "\n" ++ last := by
  unfold unlines
  rw [String.intercalate_append_of_ne_nil h (List.cons_ne_nil _ _), String.intercalate_singleton]

/-- A text of which the last line has text does not end with a line break. -/
theorem not_suffix_unlines (lines : List String) {last : String} (hlast : IsLine last)
    (hne : last ≠ "") : ¬ ['\n'] <:+ (unlines (lines ++ [last])).toList := by
  have htext : ∃ above, (unlines (lines ++ [last])).toList = above ++ last.toList := by
    by_cases hlines : lines = []
    · subst hlines
      exact ⟨[], by simp [unlines]⟩
    · exact ⟨(unlines lines ++ "\n").toList, by rw [unlines_concat hlines, String.toList_append]⟩
  obtain ⟨above, habove⟩ := htext
  rw [habove]
  rintro ⟨front, hfront⟩
  have hchars : last.toList ≠ [] := fun h => hne (String.toList_eq_nil_iff.1 h)
  have hend : last.toList.getLast? = some '\n' := by
    rw [← List.getLast?_append_of_ne_nil above hchars, ← hfront, List.getLast?_concat]
  exact hlast (List.mem_of_getLast? hend)

theorem toList_unlines_cons_cons (first second : String) (rest : List String) :
    (unlines (first :: second :: rest)).toList =
      first.toList ++ '\n' :: (unlines (second :: rest)).toList := by
  rw [unlines_cons_cons]
  simp

/-- A run of line breaks does not begin inside of a line. -/
theorem infix_of_infix_append {line run rest : List Char} (hline : '\n' ∉ line)
    (h : '\n' :: run <:+: line ++ rest) : '\n' :: run <:+: rest := by
  induction line with
  | nil => exact h
  | cons c line ih =>
    have hmore : '\n' ∉ line := fun hmem => hline (List.mem_cons_of_mem _ hmem)
    rcases List.infix_cons_iff.1 h with hprefix | hinfix
    · obtain ⟨hc, -⟩ := List.cons_prefix_cons.1 hprefix
      exact absurd (hc ▸ List.mem_cons_self) hline
    · exact ih hmore hinfix

/-- A text that begins with a line break begins with an empty line, behind which it goes on. -/
theorem eq_empty_of_prefix {first : String} {rest : List String} {run : List Char}
    (hfirst : IsLine first) (h : '\n' :: run <+: (unlines (first :: rest)).toList) :
    first = "" ∧ ∃ second more, rest = second :: more ∧ run <+: (unlines rest).toList := by
  cases rest with
  | nil =>
    have hmem : '\n' ∈ first.toList := by
      have hall := h.subset List.mem_cons_self
      rwa [unlines, String.intercalate_singleton] at hall
    exact absurd hmem hfirst
  | cons second more =>
    rw [toList_unlines_cons_cons] at h
    cases hchars : first.toList with
    | nil =>
      rw [hchars] at h
      obtain ⟨-, hrun⟩ := List.cons_prefix_cons.1 h
      exact ⟨String.toList_eq_nil_iff.1 hchars, second, more, rfl, hrun⟩
    | cons c front =>
      rw [hchars] at h
      obtain ⟨hc, -⟩ := List.cons_prefix_cons.1 h
      exact absurd (by rw [hchars, ← hc]; exact List.mem_cons_self) hfirst

/-- Three line breaks in a row would be two empty lines in a row. -/
theorem not_infix_of_isChain {lines : List String} (hlines : ∀ line ∈ lines, IsLine line)
    (hspaced : lines.IsChain fun a b => a ≠ "" ∨ b ≠ "") :
    ¬ ['\n', '\n', '\n'] <:+: (unlines lines).toList := by
  induction lines with
  | nil => simp [unlines]
  | cons first rest ih =>
    intro h
    have hrest : ∀ line ∈ rest, IsLine line := fun line hline =>
      hlines line (List.mem_cons_of_mem _ hline)
    cases rest with
    | nil =>
      rw [unlines, String.intercalate_singleton] at h
      exact hlines first List.mem_cons_self (h.subset List.mem_cons_self)
    | cons second more =>
      rw [toList_unlines_cons_cons] at h
      have htail := infix_of_infix_append (hlines first List.mem_cons_self) h
      rcases List.infix_cons_iff.1 htail with hprefix | hinfix
      · obtain ⟨-, htwo⟩ := List.cons_prefix_cons.1 hprefix
        obtain ⟨hsecond, third, _, hmore, hone⟩ :=
          eq_empty_of_prefix (hrest second List.mem_cons_self) htwo
        subst hmore
        have hthirdLine : IsLine third :=
          hrest third (List.mem_cons_of_mem _ List.mem_cons_self)
        obtain ⟨hthird, -⟩ := eq_empty_of_prefix hthirdLine hone
        have hpair := (List.isChain_cons_cons.1 (List.isChain_cons_cons.1 hspaced).2).1
        rcases hpair with hne | hne
        · exact hne hsecond
        · exact hne hthird
      · exact ih hrest (List.isChain_cons_cons.1 hspaced).2 hinfix

end Joining

end FluentGen.Text
