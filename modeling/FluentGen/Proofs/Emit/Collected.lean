import FluentGen.Builder.Expansion
import FluentGen.Proofs.Emit.Lines

/-!
What a buffer keeps of a builder's output. The layers above it do not mix channels: the collected
lines of a channel are the emitted ones of that channel, single spaced and indented, and the
collected includes are the ones that were asked for.
-/

namespace FluentGen

namespace Emit

def needsTo (channel : Channel) (out : List Emission) : List String :=
  out.filterMap fun
    | .needs c operand => if c = channel then some operand else none
    | _ => none

end Emit

namespace Builder

open Emit (linesTo needsTo)

/-- Lines without the empty ones at the start and behind another empty line. `afterText` says
whether the line before them was not empty. -/
def singleSpaced : (afterText : Bool) → List String → List String
  | _, [] => []
  | afterText, line :: rest =>
    if line.isEmpty && !afterText then singleSpaced false rest
    else line :: singleSpaced (!line.isEmpty) rest

def indents : PerChannel String := ⟨"  ", "", "  "⟩

/-- A line behind the indent of its channel. -/
def indented (channel : Channel) (line : String) : String :=
  if line.isEmpty then line else indents.get channel ++ line

/-- The lines that a buffer keeps of the lines that are emitted for a channel. -/
def laidOut (channel : Channel) (lines : List String) : List String :=
  (singleSpaced false lines).map (indented channel)

/-- Layers that let every line through, changed by `f`, and remember nothing. -/
def Changes (below : List Layer) (f : Channel → String → String) : Prop :=
  ∀ channel line, Stack.through channel below line = (below, some (f channel line))

theorem changes_nil : Changes [] fun _ line => line := fun _ _ => rfl

theorem changes_indent : Changes [.indent indents] indented := fun _ _ => rfl

/-- The layers of a builder in the middle of a run. -/
def layersAfter (afterText : PerChannel Bool) : List Layer :=
  [.noDoubleEmpty afterText, .indent indents]

theorem layers_eq : layers = layersAfter (.all false) := rfl

theorem write_above {below : List Layer} {f : Channel → String → String} (h : Changes below f)
    (afterText : PerChannel Bool) (buffer : Buffer) (channel : Channel) (line : String) :
    (⟨.noDoubleEmpty afterText :: below, buffer⟩ : Stack).write channel line =
      ⟨.noDoubleEmpty (afterText.set channel !line.isEmpty) :: below,
        if line.isEmpty && !afterText.get channel then buffer
        else buffer.write channel (f channel line)⟩ := by
  unfold Stack.write
  simp only [Stack.through, Layer.write]
  cases hdropped : line.isEmpty && !afterText.get channel with
  | true => rfl
  | false => simp only [h channel line, Bool.false_eq_true, if_false]

theorem get_lines_write (buffer : Buffer) (channel c : Channel) (line : String) :
    (buffer.write channel line).lines.get c =
      buffer.lines.get c ++ if c = channel then [line] else [] := by
  simp only [Buffer.write, PerChannel.modify, PerChannel.get_set]
  split
  · next heq => rw [heq]
  · rw [List.append_nil]

theorem get_includes_addInclude (buffer : Buffer) (channel c : Channel) (operand : String) :
    (buffer.addInclude channel operand).includes.get c =
      if c = channel then (buffer.includes.get c).add operand else buffer.includes.get c := by
  simp only [Buffer.addInclude, PerChannel.modify, PerChannel.get_set]
  split
  · next heq => rw [heq]
  · rfl

-- The induction is on the output. What the layers remember of the channel is carried along, what
-- they remember of the others does not count.
theorem lines_take_above {below : List Layer} {f : Channel → String → String}
    (h : Changes below f) (c : Channel) (out : List Emission) (afterText : PerChannel Bool)
    (buffer : Buffer) :
    ((⟨.noDoubleEmpty afterText :: below, buffer⟩ : Stack).take out).buffer.lines.get c =
      buffer.lines.get c ++ (singleSpaced (afterText.get c) (linesTo c out)).map (f c) := by
  induction out generalizing afterText buffer with
  | nil => exact (List.append_nil _).symm
  | cons emission rest ih =>
    cases emission with
    | needs channel operand => exact ih afterText _
    | log record => exact ih afterText buffer
    | line channel text =>
      rw [Stack.take, write_above h, ih, PerChannel.get_set]
      by_cases hc : channel = c
      · subst hc
        have hlines : linesTo channel (.line channel text :: rest) =
            text :: linesTo channel rest := by
          simp [linesTo]
        rw [hlines, singleSpaced, if_pos rfl]
        split
        · next hdropped =>
          have hempty : text.isEmpty = true := (Bool.and_eq_true_iff.1 hdropped).1
          rw [hempty]
          rfl
        · rw [get_lines_write, if_pos rfl, List.map_cons, List.append_assoc]
          rfl
      · have hlines : linesTo c (.line channel text :: rest) = linesTo c rest := by
          simp [linesTo, hc]
        rw [hlines, if_neg (Ne.symm hc)]
        split
        · rfl
        · rw [get_lines_write, if_neg (Ne.symm hc), List.append_nil]

theorem includes_take (c : Channel) (out : List Emission) (afterText : PerChannel Bool)
    (buffer : Buffer) :
    ((⟨layersAfter afterText, buffer⟩ : Stack).take out).buffer.includes.get c =
      (needsTo c out).foldl NameSet.add (buffer.includes.get c) := by
  induction out generalizing afterText buffer with
  | nil => rfl
  | cons emission rest ih =>
    cases emission with
    | log record => exact ih afterText buffer
    | line channel text =>
      have hkept : (if text.isEmpty && !afterText.get channel then buffer
          else buffer.write channel (indented channel text)).includes = buffer.includes := by
        split
        · rfl
        · rfl
      rw [Stack.take, layersAfter, write_above changes_indent, ← layersAfter, ih, hkept]
      rfl
    | needs channel operand =>
      rw [Stack.take, ih, get_includes_addInclude]
      by_cases hc : channel = c
      · have hneeds : needsTo c (.needs channel operand :: rest) =
            operand :: needsTo c rest := by
          simp [needsTo, hc]
        rw [hneeds, if_pos hc.symm, List.foldl_cons]
      · have hneeds : needsTo c (.needs channel operand :: rest) = needsTo c rest := by
          simp [needsTo, hc]
        rw [hneeds, if_neg (Ne.symm hc)]

/-- The collected lines of a channel are those that were emitted for it, laid out. -/
theorem lines_collect (buffer : Buffer) (out : List Emission) (c : Channel) :
    (collect buffer out).lines.get c = buffer.lines.get c ++ laidOut c (linesTo c out) := by
  rw [collect, layers_eq, layersAfter, lines_take_above changes_indent, PerChannel.get_all]
  rfl

theorem includes_collect (buffer : Buffer) (out : List Emission) (c : Channel) :
    (collect buffer out).includes.get c =
      (needsTo c out).foldl NameSet.add (buffer.includes.get c) := by
  rw [collect, layers_eq, includes_take]

end Builder

end FluentGen
