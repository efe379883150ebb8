import FluentGen.Proofs.Emit.SingleSpaced

/-!
Writing through a stack of writers. Of a run of writes to all channels each channel keeps its own
lines, single spaced and indented, in whichever order the layer that drops empty lines and the one
that indents are stacked: an indent makes no line empty, so both orders take the same steps.
-/

namespace FluentGen

/-- The lines among the writes to all channels that go to one of them. -/
def linesFor (channel : Channel) (writes : List (Channel × String)) : List String :=
  (writes.filter fun w => w.1 = channel).map Prod.snd

namespace Layer

/-- A line behind the indent of its channel, if there is anything in it. -/
def indented (indents : PerChannel String) (channel : Channel) (line : String) : String :=
  if line.isEmpty then line else indents.get channel ++ line

theorem isEmpty_indented (indents : PerChannel String) (channel : Channel) (line : String) :
    (indented indents channel line).isEmpty = line.isEmpty := by
  unfold indented
  split
  · rfl
  · next htext =>
    rw [Bool.not_eq_true] at htext
    rw [htext, Bool.eq_false_iff, ne_eq, String.isEmpty_iff]
    intro hempty
    rw [(String.append_eq_empty_iff.1 hempty).2] at htext
    cases htext

end Layer

namespace Stack

/-- Takes one line after the other. -/
def writeAll (s : Stack) (writes : List (Channel × String)) : Stack :=
  writes.foldl (fun s w => s.write w.1 w.2) s

/-- One write to a buffer that keeps single empty lines only and indents the others. Whether the
last line of each channel had something in it is kept beside it. -/
def spacedWrite (indents : PerChannel String) (state : PerChannel Bool × Buffer)
    (w : Channel × String) : PerChannel Bool × Buffer :=
  (state.1.set w.1 !w.2.isEmpty,
    if w.2.isEmpty && !state.1.get w.1 then state.2
    else state.2.write w.1 (Layer.indented indents w.1 w.2))

/-- Layers that keep single empty lines only and indent the others. `layersAfter` are the layers in
the middle of a run. -/
def Spaces (layersAfter : PerChannel Bool → List Layer) (indents : PerChannel String) : Prop :=
  ∀ state w, (⟨layersAfter state.1, state.2⟩ : Stack).write w.1 w.2 =
    ⟨layersAfter (spacedWrite indents state w).1, (spacedWrite indents state w).2⟩

variable {layersAfter : PerChannel Bool → List Layer} {indents : PerChannel String}

theorem spaces_outside :
    Spaces (fun afterText => [.pass, .noDoubleEmpty afterText, .indent indents]) indents := by
  rintro ⟨afterText, buffer⟩ ⟨channel, line⟩
  unfold Stack.write spacedWrite
  simp only [through, Layer.write]
  cases line.isEmpty && !afterText.get channel with
  | true => rfl
  | false => rfl

theorem spaces_inside :
    Spaces (fun afterText => [.indent indents, .noDoubleEmpty afterText]) indents := by
  rintro ⟨afterText, buffer⟩ ⟨channel, line⟩
  have hempty := Layer.isEmpty_indented indents channel line
  unfold Stack.write spacedWrite
  simp only [through, Layer.write]
  rw [← Layer.indented, hempty]
  cases line.isEmpty && !afterText.get channel with
  | true => rfl
  | false => rfl

/-- A run of writes through such layers. -/
theorem writeAll_of_spaces (h : Spaces layersAfter indents) (writes : List (Channel × String))
    (state : PerChannel Bool × Buffer) :
    (⟨layersAfter state.1, state.2⟩ : Stack).writeAll writes =
      ⟨layersAfter (writes.foldl (spacedWrite indents) state).1,
        (writes.foldl (spacedWrite indents) state).2⟩ := by
  induction writes generalizing state with
  | nil => rfl
  | cons w rest ih =>
    rw [writeAll, List.foldl_cons, h state w, ← writeAll, ih]
    rfl

-- The induction is on the writes. What is remembered of the channel is carried along, a write to
-- another channel changes neither it nor the lines.
theorem lines_spacedWrites (writes : List (Channel × String)) (c : Channel)
    (state : PerChannel Bool × Buffer) :
    (writes.foldl (spacedWrite indents) state).2.lines.get c =
      state.2.lines.get c ++
        (Builder.singleSpaced (state.1.get c) (linesFor c writes)).map
          (Layer.indented indents c) := by
  induction writes generalizing state with
  | nil => exact (List.append_nil _).symm
  | cons w rest ih =>
    obtain ⟨channel, line⟩ := w
    rw [List.foldl_cons, ih, spacedWrite, PerChannel.get_set]
    by_cases hc : c = channel
    · subst hc
      have hlines : linesFor c ((c, line) :: rest) = line :: linesFor c rest := by
        simp [linesFor]
      rw [hlines, Builder.singleSpaced, if_pos rfl]
      split
      · next hdropped =>
        rw [(Bool.and_eq_true_iff.1 hdropped).1]
        rfl
      · rw [Builder.get_lines_write, if_pos rfl, List.map_cons, List.append_assoc]
        rfl
    · have hlines : linesFor c ((channel, line) :: rest) = linesFor c rest := by
        simp [linesFor, Ne.symm hc]
      rw [hlines, if_neg hc]
      split
      · rfl
      · rw [Builder.get_lines_write, if_neg hc, List.append_nil]

section Outermost

variable {layer next : Layer} {below : List Layer} {buffer : Buffer} {channel : Channel}
  {line passed : String}

theorem write_of_drops (h : layer.write channel line = (next, none)) :
    (⟨layer :: below, buffer⟩ : Stack).write channel line = ⟨next :: below, buffer⟩ := by
  unfold Stack.write
  simp only [through, h]

theorem write_of_passes (h : layer.write channel line = (next, some passed)) :
    (⟨layer :: below, buffer⟩ : Stack).write channel line =
      ⟨next :: ((⟨below, buffer⟩ : Stack).write channel passed).layers,
        ((⟨below, buffer⟩ : Stack).write channel passed).buffer⟩ := by
  unfold Stack.write
  simp only [through, h]
  obtain ⟨layers, result⟩ := through channel below passed
  cases result with
  | none => rfl
  | some line => rfl

end Outermost

theorem length_layers_write (s : Stack) (channel : Channel) (line : String) :
    (s.write channel line).layers.length = s.layers.length := by
  obtain ⟨layers, buffer⟩ := s
  induction layers generalizing line with
  | nil => rfl
  | cons layer below ih =>
    rcases hwrite : layer.write channel line with ⟨next, result⟩
    cases result with
    | none =>
      rw [write_of_drops hwrite]
      rfl
    | some passed =>
      rw [write_of_passes hwrite]
      exact congrArg (· + 1) (ih passed)

end Stack

namespace Desk

/-- Writes one line after the other to a writer. -/
def writeAll (desk : Desk) (index : Nat) (writes : List (Channel × String)) : Desk :=
  writes.foldl (fun desk w => desk.write index w.1 w.2) desk

/-- A buffer with layers above it, as writers: each layer stands above the writer in front of it,
the outermost one last. -/
def ofLayers (buffer : Buffer) : List Layer → Desk
  | [] => [.buffer buffer]
  | layer :: below => ofLayers buffer below ++ [.above layer below.length]

theorem length_ofLayers (buffer : Buffer) (layers : List Layer) :
    (ofLayers buffer layers).length = layers.length + 1 := by
  induction layers with
  | nil => rfl
  | cons layer below ih => simp [ofLayers, ih]

/-- The writers of a stack, which may not be the only ones, that of the outermost layer last. -/
def ofStack (s : Stack) (others : Desk) : Desk :=
  ofLayers s.buffer s.layers ++ others

theorem ofStack_cons (layer : Layer) (below : List Layer) (buffer : Buffer) (others : Desk) :
    ofStack ⟨layer :: below, buffer⟩ others =
      ofStack ⟨below, buffer⟩ (.above layer below.length :: others) := by
  simp [ofStack, ofLayers]

theorem getElem?_ofStack (s : Stack) (writer : Writer) (others : Desk) :
    (ofStack s (writer :: others))[s.layers.length + 1]? = some writer := by
  rw [← length_ofLayers s.buffer, ofStack, List.getElem?_append_right (Nat.le_refl _),
    Nat.sub_self]
  rfl

theorem set_ofStack (s : Stack) (writer other : Writer) (others : Desk) :
    (ofStack s (writer :: others)).set (s.layers.length + 1) other =
      ofStack s (other :: others) := by
  rw [← length_ofLayers s.buffer, ofStack, List.set_append_right _ _ (Nat.le_refl _), Nat.sub_self]
  rfl

-- The induction is on the layers, from the outermost one. What has been gone through already is
-- among the other writers.
/-- Writing to the last writer of a stack is writing to the stack. -/
theorem writeDown_ofStack (s : Stack) (channel : Channel) (line : String) (others : Desk)
    {depth : Nat} (h : s.layers.length < depth) :
    writeDown channel depth (ofStack s others) s.layers.length line =
      ofStack (s.write channel line) others := by
  obtain ⟨layers, buffer⟩ := s
  induction layers generalizing depth line others with
  | nil =>
    obtain ⟨depth, rfl⟩ := Nat.exists_eq_succ_of_ne_zero (Nat.ne_zero_of_lt h)
    rfl
  | cons layer below ih =>
    obtain ⟨depth, rfl⟩ := Nat.exists_eq_succ_of_ne_zero (Nat.ne_zero_of_lt h)
    have hat := getElem?_ofStack ⟨below, buffer⟩ (.above layer below.length) others
    have hset := set_ofStack ⟨below, buffer⟩ (.above layer below.length)
    rw [ofStack_cons, writeDown, List.length_cons, hat]
    rcases hwrite : layer.write channel line with ⟨next, result⟩
    simp only [hset, hwrite]
    cases result with
    | none => rw [Stack.write_of_drops hwrite, ofStack_cons]
    | some passed =>
      have hbelow := Stack.length_layers_write ⟨below, buffer⟩ channel passed
      rw [Stack.write_of_passes hwrite, ofStack_cons, hbelow]
      exact ih passed _ (Nat.lt_of_succ_lt_succ h)

theorem write_ofStack (s : Stack) (channel : Channel) (line : String) :
    (ofStack s []).write s.layers.length channel line = ofStack (s.write channel line) [] := by
  have hlength : (ofStack s []).length = s.layers.length + 1 := by
    rw [ofStack, List.append_nil, length_ofLayers]
  rw [Desk.write, hlength]
  exact writeDown_ofStack s channel line [] (Nat.lt_succ_self _)

theorem writeAll_ofStack (s : Stack) (writes : List (Channel × String)) :
    (ofStack s []).writeAll s.layers.length writes = ofStack (s.writeAll writes) [] := by
  induction writes generalizing s with
  | nil => rfl
  | cons w rest ih =>
    rw [writeAll, List.foldl_cons, write_ofStack, ← writeAll,
      ← Stack.length_layers_write s w.1 w.2, ih]
    rfl

theorem bufferBelow_ofStack (s : Stack) (others : Desk) {depth : Nat}
    (h : s.layers.length < depth) :
    ∃ index, bufferBelow depth (ofStack s others) s.layers.length = some (index, s.buffer) := by
  obtain ⟨layers, buffer⟩ := s
  induction layers generalizing depth others with
  | nil =>
    obtain ⟨depth, rfl⟩ := Nat.exists_eq_succ_of_ne_zero (Nat.ne_zero_of_lt h)
    exact ⟨0, rfl⟩
  | cons layer below ih =>
    obtain ⟨depth, rfl⟩ := Nat.exists_eq_succ_of_ne_zero (Nat.ne_zero_of_lt h)
    have hat := getElem?_ofStack ⟨below, buffer⟩ (.above layer below.length) others
    rw [ofStack_cons, bufferBelow, List.length_cons, hat]
    exact ih _ (Nat.lt_of_succ_lt_succ h)

theorem buffer?_ofStack (s : Stack) :
    (ofStack s []).buffer? s.layers.length = some s.buffer := by
  have hlength : (ofStack s []).length = s.layers.length + 1 := by
    rw [ofStack, List.append_nil, length_ofLayers]
  obtain ⟨index, hbelow⟩ := bufferBelow_ofStack s [] (Nat.lt_succ_self s.layers.length)
  rw [buffer?, hlength, hbelow]
  rfl

end Desk

open Builder (textsOf singleSpaced)

/-- What single spacing and an indent leave of the lines that are written to a channel. -/
structure SpacedFrom (indent : String) (written lines : List String) : Prop where
  start : lines.head? ≠ some ""
  single : ¬ ["", ""] <:+: lines
  texts : textsOf lines = (textsOf written).map (indent ++ ·)
  between : ∀ before first gap second after, written = before ++ first :: gap ++ second :: after →
    first ≠ "" → (∀ line ∈ gap, line = "") → second ≠ "" →
    ∃ front back,
      lines = front ++ (indent ++ first) :: (if gap = [] then [] else [""]) ++
        (indent ++ second) :: back ∧
      textsOf front = (textsOf before).map (indent ++ ·) ∧
      textsOf back = (textsOf after).map (indent ++ ·)

section Indents

variable (indents : PerChannel String) (c : Channel)

theorem indented_of_text {line : String} (h : line ≠ "") :
    Layer.indented indents c line = indents.get c ++ line := by
  have htext : line.isEmpty = false := by simpa using h
  rw [Layer.indented, htext]
  rfl

theorem indented_eq_empty_iff {line : String} : Layer.indented indents c line = "" ↔ line = "" := by
  rw [← String.isEmpty_iff, ← String.isEmpty_iff, Layer.isEmpty_indented]

theorem textsOf_indented (lines : List String) :
    textsOf (lines.map (Layer.indented indents c)) =
      (textsOf lines).map (indents.get c ++ ·) := by
  induction lines with
  | nil => rfl
  | cons line rest ih =>
    have hempty := Layer.isEmpty_indented indents c line
    unfold textsOf at ih ⊢
    by_cases hline : line = ""
    · have hdropped : line.isEmpty = true := String.isEmpty_iff.2 hline
      rw [List.map_cons, List.filter_cons_of_neg (by simp [hempty, hdropped]), ih,
        List.filter_cons_of_neg (by simp [hdropped])]
    · have hkept : line.isEmpty = false := by simpa using hline
      rw [List.map_cons, List.filter_cons_of_pos (by simp [hempty, hkept]), ih,
        List.filter_cons_of_pos (by simp [hkept]), List.map_cons, indented_of_text indents c hline]

theorem spacedFrom_singleSpaced (written : List String) :
    SpacedFrom (indents.get c) written
      ((singleSpaced false written).map (Layer.indented indents c)) where
  start := by
    intro hhead
    rw [List.head?_map, Option.map_eq_some_iff] at hhead
    obtain ⟨line, hline, hempty⟩ := hhead
    exact Builder.head?_singleSpaced hline ((indented_eq_empty_iff indents c).1 hempty)
  single := by
    intro hdouble
    have hchain : ((singleSpaced false written).map (Layer.indented indents c)).IsChain
        fun a b => a ≠ "" ∨ b ≠ "" := by
      refine (List.isChain_map _).2 ((Builder.isChain_singleSpaced false written).imp ?_)
      intro a b h
      rwa [ne_eq, ne_eq, indented_eq_empty_iff, indented_eq_empty_iff]
    have hpair := hchain.infix hdouble
    rw [List.isChain_cons_cons] at hpair
    exact hpair.1.elim (fun h => h rfl) (fun h => h rfl)
  texts := by rw [textsOf_indented, Builder.textsOf_singleSpaced]
  between := by
    intro before first gap second after hwritten hfirst hgap hsecond
    refine ⟨(singleSpaced false before).map (Layer.indented indents c),
      (singleSpaced true after).map (Layer.indented indents c), ?_, ?_, ?_⟩
    · rw [hwritten, Builder.singleSpaced_between hfirst hgap hsecond, List.map_append,
        List.map_append, List.map_cons, List.map_cons, indented_of_text indents c hfirst,
        indented_of_text indents c hsecond, apply_ite (List.map _)]
      rfl
    · rw [textsOf_indented, Builder.textsOf_singleSpaced]
    · rw [textsOf_indented, Builder.textsOf_singleSpaced]

end Indents

/-- The buffer below such layers after a run of writes to the outermost one. -/
theorem buffer?_of_spaces {layersAfter : PerChannel Bool → List Layer}
    {indents : PerChannel String} (h : Stack.Spaces layersAfter indents) (buffer : Buffer)
    (writes : List (Channel × String)) {index : Nat}
    (hindex : ∀ afterText, (layersAfter afterText).length = index) :
    ((Desk.ofLayers buffer (layersAfter (.all false))).writeAll index writes).buffer? index =
      some (writes.foldl (Stack.spacedWrite indents) (.all false, buffer)).2 := by
  have hrun := Stack.writeAll_of_spaces h writes (.all false, buffer)
  have hdesk := Desk.writeAll_ofStack ⟨layersAfter (.all false), buffer⟩ writes
  have hbuffer := Desk.buffer?_ofStack
    ((⟨layersAfter (.all false), buffer⟩ : Stack).writeAll writes)
  rw [hrun, hindex] at hbuffer
  rw [hrun, hindex, Desk.ofStack, List.append_nil] at hdesk
  rw [hdesk, hbuffer]

/-- Whatever is written to the three channels, in whatever order, through the layer that keeps
single empty lines only and the one below it that indents: no channel's lines begin with an empty
one or hold two empty ones in a row, they are the channel's lines of text in order behind its
indent, and between two of these an empty line stands exactly if one was written to the channel
between them. The buffer is the same if the two layers change places. -/
theorem lines_of_writes (package : List String) (head body : String)
    (writes : List (Channel × String)) :
    ∃ buffer : Buffer,
      ((Desk.ofLayers { package } [.pass, .singleEmptyLines, .indenting head body]).writeAll 3
        writes).buffer? 3 = some buffer ∧
      ((Desk.ofLayers { package } [.indenting head body, .singleEmptyLines]).writeAll 2
        writes).buffer? 2 = some buffer ∧
      ∀ c, SpacedFrom ((⟨head, body, head⟩ : PerChannel String).get c) (linesFor c writes)
        (buffer.lines.get c) := by
  refine ⟨(writes.foldl (Stack.spacedWrite ⟨head, body, head⟩) (.all false, { package })).2,
    buffer?_of_spaces Stack.spaces_outside _ writes fun _ => rfl,
    buffer?_of_spaces Stack.spaces_inside _ writes fun _ => rfl, ?_⟩
  intro c
  have hlines := @Stack.lines_spacedWrites ⟨head, body, head⟩ writes c (.all false, { package })
  rw [PerChannel.get_all, PerChannel.get_all, List.nil_append] at hlines
  rw [hlines]
  exact spacedFrom_singleSpaced _ c _

/-- Two lines of text for the source with two empty ones between them, among header lines. -/
theorem lines_of_writes_interleaved :
    let writes : List (Channel × String) := [(.source, ""), (.source, "a"), (.header, "x"),
      (.source, ""), (.header, ""), (.source, ""), (.header, "y"), (.source, "b"), (.source, "")]
    ∃ buffer : Buffer,
      ((Desk.ofLayers { package := ["p"] }
        [.pass, .singleEmptyLines, .indenting "  " "--"]).writeAll 3 writes).buffer? 3 =
          some buffer ∧
      ∃ front back,
        buffer.lines.get .source = front ++ ("--" ++ "a") :: [""] ++ ("--" ++ "b") :: back ∧
        textsOf front = [] ∧ textsOf back = [] := by
  intro writes
  obtain ⟨buffer, hbuffer, -, hspaced⟩ := lines_of_writes ["p"] "  " "--" writes
  exact ⟨buffer, hbuffer, (hspaced .source).between [""] "a" ["", ""] "b" [""]
    (by decide) (by decide) (by decide) (by decide)⟩

end FluentGen
