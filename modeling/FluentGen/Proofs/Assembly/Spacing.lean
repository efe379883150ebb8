import FluentGen.Assembly.Files
import FluentGen.Proofs.Emit.SingleSpaced
import FluentGen.Proofs.Text.Lines

/-!
The look of the generated files. A file is the text of its layout, cut into lines again, of which
only single empty ones are kept. So it begins with the banner, no two of its lines are empty in a
row, and it ends with one line break, whatever texts the layout has been filled with.
-/

namespace FluentGen

namespace Builder

-- The induction is on the lines in front of the last one. Where one of them is kept although all
-- that follow are empty, it is the last one that is kept.
/-- An empty line at the end is the last one that is kept, if there is text in front of it. -/
theorem getLast?_singleSpaced {afterText : Bool} {lines : List String}
    (h : afterText = true ∨ ∃ line ∈ lines, line ≠ "") :
    (singleSpaced afterText (lines ++ [""])).getLast? = some "" := by
  induction lines generalizing afterText with
  | nil =>
    rcases h with rfl | ⟨line, hline, -⟩
    · rfl
    · cases hline
  | cons line rest ih =>
    by_cases htext : ∃ line ∈ rest, line ≠ ""
    · have hrest : ∀ b, (singleSpaced b (rest ++ [""])).getLast? = some "" :=
        fun b => ih (Or.inr htext)
      rw [List.cons_append, singleSpaced]
      split
      · exact hrest false
      · rw [List.getLast?_cons, hrest]
        rfl
    · by_cases hline : line = ""
      · have hempty : ∀ line ∈ rest ++ [""], line = "" := by
          intro other hother
          rcases List.mem_append.1 hother with hother | hother
          · by_contra hne
            exact htext ⟨other, hother, hne⟩
          · exact List.mem_singleton.1 hother
        have hafter : afterText = true := by
          rcases h with hafter | ⟨other, hother, hne⟩
          · exact hafter
          · rcases List.mem_cons.1 hother with rfl | hother
            · exact absurd hline hne
            · exact absurd ⟨other, hother, hne⟩ htext
        have hdropped : singleSpaced (!"".isEmpty) (rest ++ [""]) = [] :=
          singleSpaced_of_empty hempty
        subst hline hafter
        rw [List.cons_append, singleSpaced, hdropped]
        rfl
      · have hkept : line.isEmpty = false := by simpa using hline
        rw [List.cons_append, singleSpaced, hkept]
        simp [List.getLast?_cons, ih (Or.inl rfl)]

section Texts

variable {first : String} {lines : List String} (hfirst : first ≠ "")

include hfirst

/-- The text of the lines that are kept begins with the first line. -/
theorem unlines_singleSpaced :
    ∃ rest, Text.unlines (singleSpaced false (first :: lines ++ [""])) = first ++ "\n" ++ rest := by
  rw [List.cons_append, singleSpaced_cons_of_text hfirst]
  have hlast := @getLast?_singleSpaced true lines (Or.inl rfl)
  cases hbehind : singleSpaced true (lines ++ [""]) with
  | nil => rw [hbehind] at hlast; cases hlast
  | cons second more => exact ⟨Text.unlines (second :: more), Text.unlines_cons_cons ..⟩

/-- The last line that is kept is empty, and the one in front of it is not. -/
theorem singleSpaced_eq_concat :
    ∃ above last, singleSpaced false (first :: lines ++ [""]) = above ++ [last] ++ [""] ∧
      last ≠ "" := by
  obtain ⟨front, hfront⟩ := List.getLast?_eq_some_iff.1
    (getLast?_singleSpaced (Or.inr ⟨first, List.mem_cons_self, hfirst⟩) :
      (singleSpaced false (first :: lines ++ [""])).getLast? = some "")
  rcases List.eq_nil_or_concat' front with rfl | ⟨above, last, rfl⟩
  · rw [List.cons_append, singleSpaced_cons_of_text hfirst] at hfront
    exact absurd (List.cons.inj hfront).1 hfirst
  · refine ⟨above, last, hfront, ?_⟩
    have hspaced := isChain_singleSpaced false (first :: lines ++ [""])
    rw [hfront, List.append_assoc] at hspaced
    have hpair := (List.isChain_cons_cons.1 hspaced.right_of_append).1
    exact hpair.resolve_right fun h => h rfl

end Texts

end Builder

namespace Assembly

open Builder (singleSpaced)
open Emit (linesTo)
open Text (IsLine)

theorem banner_isLine : IsLine Layout.banner := by
  unfold IsLine
  decide

theorem parts_eq (d : Dictionary) (c : Channel) :
    ∃ second rest, Layout.parts d c = Layout.banner :: second :: rest := by
  cases c with
  | header => exact ⟨_, _, rfl⟩
  | source => exact ⟨_, _, rfl⟩
  | interface => exact ⟨_, _, rfl⟩

theorem lines_render (d : Dictionary) (c : Channel) :
    ∃ rest, Text.lines (Layout.render d c) = Layout.banner :: rest := by
  obtain ⟨second, rest, hparts⟩ := parts_eq d c
  refine ⟨Text.lines (Text.unlines (second :: rest)), ?_⟩
  rw [Layout.render, hparts, Text.unlines_cons_cons, Text.lines_append banner_isLine]

theorem linesTo_map_line (channel c : Channel) (lines : List String) :
    linesTo c (lines.map (Emission.line channel)) = if channel = c then lines else [] := by
  split
  · next h =>
    subst h
    exact Emit.linesOf_lines channel lines
  · next h =>
    have hc : c ∉ [channel] := fun hmem => h (List.mem_singleton.1 hmem).symm
    exact Emit.StaysIn.lines channel lines c hc

/-- The lines of a channel among those that are laid out: its file is laid out once. -/
theorem linesTo_channels (a : Assembly) {c : Channel} (hc : c ∈ a.channels)
    (file : Channel → List String) :
    linesTo c (a.channels.flatMap fun c => (file c).map (Emission.line c)) = file c := by
  unfold channels at hc ⊢
  split at hc
  · next hinterface =>
    rw [if_pos hinterface]
    cases c <;> simp [linesTo_map_line]
  · next hnone =>
    rw [if_neg hnone]
    cases c <;> simp_all [linesTo_map_line]

theorem contents_eq (a : Assembly) {c : Channel} (hc : c ∈ a.channels) :
    a.layOut.contents c = Text.unlines
      (singleSpaced false (Text.lines (Layout.render a.dictionary c) ++ [""])) := by
  have hlines := linesTo_channels a hc
    fun c => Text.lines (Layout.render a.dictionary c) ++ [""]
  unfold layOut Buffer.contents Text.unlines
  dsimp only
  rw [Layer.singleEmptyLines, Builder.lines_take_above Builder.changes_nil, hlines,
    PerChannel.get_all]
  simp

/-- Whatever texts an assembly is filled with, a file that it lays out is the text of the layout with
single empty lines only. It begins with the line of the banner, has no three line breaks in a row,
and ends with exactly one. -/
theorem contents_layOut (a : Assembly) {c : Channel} (hc : c ∈ a.channels) :
    a.layOut.contents c = Text.unlines
        (singleSpaced false (Text.lines (Layout.render a.dictionary c) ++ [""])) ∧
      (∃ rest, a.layOut.contents c = Layout.banner ++ "\n" ++ rest) ∧
      ¬ ['\n', '\n', '\n'] <:+: (a.layOut.contents c).toList ∧
      ∃ body, a.layOut.contents c = body ++ "\n" ∧ ¬ ['\n'] <:+ body.toList := by
  obtain ⟨rest, hrest⟩ := lines_render a.dictionary c
  have hbanner : Layout.banner ≠ "" := by decide
  have hlines : ∀ line ∈ singleSpaced false (Layout.banner :: rest ++ [""]), IsLine line := by
    intro line hline
    rcases List.mem_append.1 ((Builder.singleSpaced_sublist _ _).subset hline) with hmem | hmem
    · exact Text.isLine_of_mem_lines (hrest ▸ hmem)
    · rw [List.mem_singleton.1 hmem]
      exact List.not_mem_nil
  obtain ⟨above, last, hkept, hlast⟩ := @Builder.singleSpaced_eq_concat _ rest hbanner
  rw [contents_eq a hc, hrest]
  refine ⟨rfl, Builder.unlines_singleSpaced hbanner,
    Text.not_infix_of_isChain hlines (Builder.isChain_singleSpaced _ _),
    Text.unlines (above ++ [last]), ?_,
    Text.not_suffix_unlines above (hlines last (by rw [hkept]; simp)) hlast⟩
  rw [hkept, Text.unlines_concat (by simp), String.append_empty]

/-- A header of which the only class has a base class with many line breaks in its name, and the
layout writes them all. -/
theorem contents_layOut_manyBreaks :
    let message : Schema.Message :=
      { address := ⟨"a.proto", [0]⟩, name := "M", fullName := "M", container := none, enclosing := []
        outermost := "M", fields := [], enums := [], isMapEntry := false
        options := some { baseClasses := ["Base\n\n\n\nMore\n\n"] } }
    let setup : Setup := { typeMap := {}, pool := {}, messages := [message], header := "a.h" }
    ∃ a, (ofSetup setup).result = .ok a ∧ Channel.header ∈ a.channels ∧
      (a.dictionary.sections 0 "BUILDER").map (Layout.baseClasses a.dictionary) =
        [" : Base\n\n\n\nMore\n\n"] ∧
      (∃ rest, a.layOut.contents .header = Layout.banner ++ "\n" ++ rest) ∧
      ¬ ['\n', '\n', '\n'] <:+: (a.layOut.contents .header).toList ∧
      ∃ body, a.layOut.contents .header = body ++ "\n" ∧ ¬ ['\n'] <:+ body.toList := by
  intro message setup
  refine ⟨_, rfl, ?_, ?_, ?_⟩
  · decide +kernel
  · decide +kernel
  · exact (contents_layOut _ (by decide +kernel)).2

end Assembly

end FluentGen
