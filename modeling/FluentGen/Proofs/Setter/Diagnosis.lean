import FluentGen.Proofs.Emit.Collected
import FluentGen.Proofs.Setter.Declaration
import FluentGen.Proofs.Setter.Definition
import FluentGen.Proofs.TextFormat.SingleLine

/-!
What becomes of a field. Its methods are left out, or they are generated, or a diagnosis stands in
their place, and never two of these. The options in force decide which, and a diagnosis quotes them
in a single line.
-/

namespace FluentGen

namespace Emit

variable {α β : Type} {channel : Channel}

@[simp] theorem needsTo_append (channel : Channel) (first second : List Emission) :
    needsTo channel (first ++ second) = needsTo channel first ++ needsTo channel second :=
  List.filterMap_append

theorem needsTo_each {items : List α} {step : α → Emit Unit}
    (h : ∀ a, needsTo channel (step a).out = [] ∧ (step a).result = .ok ()) :
    needsTo channel (Emit.each items step).out = [] := by
  induction items with
  | nil => rfl
  | cons a rest ih =>
    obtain ⟨hnone, hends⟩ := h a
    rw [Emit.each, out_bind hends, needsTo_append, hnone, ih]
    rfl

end Emit

namespace Setter

open Emit (linesOf needsTo)
open Text (IsInline isInline_append)

variable {s : Setter} {channel : Channel}

/-- The options make no sense together: the method takes several values for a field that has one,
or it is a template although the value is fixed. -/
def Contradicts (s : Setter) : Prop :=
  (s.options.mode ∈ [.foreach, .foreachAdd, .initializerList] ∧ s.field.isRepeated = false) ∨
    (s.options.mode ∈ [.template, .foreach, .foreachAdd, .initializerList] ∧
      s.options.value.isSome = true)

theorem foreach_iff (mode : OutputMode) :
    mode.traits.foreach = true ↔ mode ∈ [.foreach, .foreachAdd, .initializerList] := by
  cases mode <;> decide

theorem template_iff (mode : OutputMode) :
    mode.traits.template = true ↔
      mode ∈ [.template, .foreach, .foreachAdd, .initializerList] := by
  cases mode <;> decide

theorem contradicts_iff : s.Contradicts ↔ ∃ error, s.conflict? = some error := by
  unfold Contradicts conflict? traits
  rw [← foreach_iff, ← template_iff]
  cases s.options.mode.traits.foreach <;> cases s.options.mode.traits.template <;>
    cases s.field.isRepeated <;> cases s.options.value.isSome <;> simp

theorem conflict?_eq_none_iff : s.conflict? = none ↔ ¬ s.Contradicts := by
  rw [contradicts_iff]
  cases s.conflict? with
  | none => simp
  | some error => simp

theorem Contradicts.template (h : s.Contradicts) : s.traits.template = true := by
  by_contra hplain
  obtain ⟨error, hconflict⟩ := contradicts_iff.1 h
  rw [conflict?_of_plain (Bool.not_eq_true _ ▸ hplain)] at hconflict
  cases hconflict

theorem Contradicts.mode_ne_skip (h : s.Contradicts) : s.options.mode ≠ .skip :=
  mode_ne_skip_of_header (header_of_template _ h.template)

/-- A block of three error lines between empty lines. -/
def IsErrorBlock (lines : List String) : Prop :=
  ∃ first second third : String,
    lines = ["", "#error " ++ first, "#error " ++ second, "#error " ++ third, ""]

/-- The field is left out: nothing is written and nothing asked for. -/
def Silent (s : Setter) : Prop :=
  ∀ channel, linesOf channel s.write = [] ∧ needsTo channel s.write.out = []

/-- An error block stands wherever the methods would, and nothing is asked for. It names the field
and quotes the options. Its lines have no control character, and so no line break, but those that the
field's name has. -/
structure Diagnosed (s : Setter) : Prop where
  placed : ∃ channel, s.reportsTo channel = true
  block : ∀ channel, s.reportsTo channel = true → ∃ error : String,
    linesOf channel s.write =
      ["", "#error " ++ error, "#error " ++ ("Field: " ++ s.field.fullName),
        "#error " ++ ("FieldBuilderOptions: <" ++ s.options.render ++ ">"), ""]
  elsewhere : ∀ channel, s.reportsTo channel = false → linesOf channel s.write = []
  unbroken : ∀ channel, ∀ line ∈ linesOf channel s.write, ∀ c : Char, c.toNat < 32 →
    c ∉ s.field.fullName.toList → c ∉ line.toList
  unneeded : ∀ channel, needsTo channel s.write.out = []

/-- The lines of a method in a channel: its declaration, with the overload for other builders, or
its definition. -/
inductive IsMethod (s : Setter) (channel : Channel) : List String → Prop
  | declared (h : ¬ s.DefinedIn channel) :
    IsMethod s channel
      (linesOf channel (s.writeTemplateLine channel) ++ s.declaration channel :: s.overload)
  | defined (h : s.DefinedIn channel) (value : String) (guard : List String)
      (hvalue : s.setValue = .ok value)
      (hguard : guard ≠ [] → ∃ predicate, s.predicate = .ok predicate ∧
        guard = s.guardOf predicate) :
    IsMethod s channel
      ("" :: linesOf channel (s.writeTemplateLine channel) ++ [s.signature channel] ++ guard ++
        s.body value ++ ["  return *this;", "\x7d", ""])

/-- The methods stand in the channels of their mode, and no error block anywhere. -/
structure Generated (s : Setter) : Prop where
  placed : ∃ channel, s.reportsTo channel = true
  method : ∀ channel, s.reportsTo channel = true → IsMethod s channel (linesOf channel s.write)
  elsewhere : ∀ channel, s.reportsTo channel = false → linesOf channel s.write = []
  undiagnosed : ∀ channel block, IsErrorBlock block → ¬ block <:+: linesOf channel s.write

section Diagnosis

theorem isInline_name (mode : OutputMode) : IsInline mode.name.toList := by
  cases mode <;> decide

theorem isInline_of_conflict? {error : String} (h : s.conflict? = some error) :
    IsInline error.toList := by
  have houtput : IsInline ("'output: " ++ s.options.mode.name ++ "'").toList := by
    simp only [String.toList_append, isInline_append]
    exact ⟨⟨by decide, isInline_name s.options.mode⟩, by decide⟩
  unfold conflict? at h
  dsimp only at h
  generalize "'output: " ++ s.options.mode.name ++ "'" = output at h houtput
  split at h
  · cases h
    simp only [String.toList_append, isInline_append]
    exact ⟨⟨by decide, houtput⟩, by decide⟩
  · split at h
    · cases h
      simp only [String.toList_append, isInline_append]
      exact ⟨⟨by decide, houtput⟩, by decide⟩
    · cases h

theorem errorBlock_eq {error : String} (h : s.conflict? = some error) :
    s.errorBlock error =
      ["", "#error " ++ error, "#error " ++ ("Field: " ++ s.field.fullName),
        "#error " ++ ("FieldBuilderOptions: <" ++ s.options.render ++ ">"), ""] := by
  have hgiven : error ≠ "" := by
    rintro rfl
    unfold conflict? at h
    dsimp only at h
    split at h
    · simp at h
    · split at h
      · simp at h
      · cases h
  simp [errorBlock, errorLine, hgiven]

theorem Diagnosed.isErrorBlock (h : s.Diagnosed) (hreports : s.reportsTo channel = true) :
    IsErrorBlock (linesOf channel s.write) := by
  obtain ⟨error, hlines⟩ := h.block channel hreports
  exact ⟨_, _, _, hlines⟩

theorem not_mem_of_isInline {text : List Char} (h : IsInline text) {c : Char} (hc : c.toNat < 32) :
    c ∉ text := by
  intro hmem
  exact absurd hc (Nat.not_lt.2 (h c hmem))

/-- Only the name of the field can break a line of an error block. The options are quoted. -/
theorem unbroken_errorBlock {error line : String} (h : s.conflict? = some error)
    (hline : line ∈ s.errorBlock error) {c : Char} (hc : c.toNat < 32)
    (hname : c ∉ s.field.fullName.toList) : c ∉ line.toList := by
  have hmark : c ∉ "#error ".toList := not_mem_of_isInline (by decide) hc
  have hfield : c ∉ "Field: ".toList := not_mem_of_isInline (by decide) hc
  have hopen : c ∉ "FieldBuilderOptions: <".toList := not_mem_of_isInline (by decide) hc
  have hclose : c ∉ ">".toList := not_mem_of_isInline (by decide) hc
  have herror : c ∉ error.toList := not_mem_of_isInline (isInline_of_conflict? h) hc
  have hquoted : c ∉ s.options.render.toList :=
    not_mem_of_isInline (FieldOptions.isInline_render s.options) hc
  rw [errorBlock_eq h] at hline
  simp only [List.mem_cons, List.not_mem_nil, or_false] at hline
  rcases hline with rfl | rfl | rfl | rfl | rfl
  · exact List.not_mem_nil
  · simp only [String.toList_append, List.mem_append, hmark, herror, or_self, not_false_iff]
  · simp only [String.toList_append, List.mem_append, hmark, hfield, hname, or_self,
      not_false_iff]
  · simp only [String.toList_append, List.mem_append, hmark, hopen, hquoted, hclose, or_self,
      not_false_iff]
  · exact List.not_mem_nil

theorem needsTo_writeErrorLine (line : String) :
    needsTo channel (s.writeErrorLine line).out = [] ∧ (s.writeErrorLine line).result = .ok () := by
  have hlog : needsTo channel (if line.isEmpty then [] else [.log ⟨Log.error, line⟩]) = [] := by
    split
    · rfl
    · rfl
  rw [writeErrorLine_eq]
  refine ⟨?_, rfl⟩
  rw [Emit.needsTo_append, hlog]
  simp [needsTo, List.filterMap_map]

theorem needsTo_write_of_conflict {error : String} (hmode : s.options.mode ≠ .skip)
    (hconflict : s.conflict? = some error) (channel : Channel) :
    needsTo channel s.write.out = [] := by
  rw [out_write_of_conflict hmode hconflict]
  exact Emit.needsTo_each needsTo_writeErrorLine

theorem diagnosed_of_contradicts (h : s.Contradicts) : s.Diagnosed := by
  obtain ⟨error, hconflict⟩ := contradicts_iff.1 h
  have hlines := linesOf_write_of_conflict h.mode_ne_skip hconflict
  constructor
  case placed => exact ⟨.header, header_of_template _ h.template⟩
  case block =>
    intro channel hreports
    rw [hlines, if_pos hreports]
    exact ⟨error, errorBlock_eq hconflict⟩
  case elsewhere =>
    intro channel hreports
    rw [hlines, hreports]
    rfl
  case unbroken =>
    intro channel line hline c hc hname
    rw [hlines] at hline
    split at hline
    · exact unbroken_errorBlock hconflict hline hc hname
    · cases hline
  case unneeded => exact needsTo_write_of_conflict h.mode_ne_skip hconflict

end Diagnosis

/-!
No line of a method begins like an error line, except that the name of the class may, which no more
than two of its lines begin with. A block of three error lines is therefore not among them.
-/

section Marks

/-- A line that begins like a preprocessor's. -/
def marked (line : String) : Bool := line.toList.head? == some '#'

theorem marked_append {first rest : String} {c : Char} (h : first.toList.head? = some c) :
    marked (first ++ rest) = (c == '#') := by
  unfold marked
  rw [String.toList_append, List.head?_append, h]
  rfl

theorem countP_of_isErrorBlock {block : List String} (h : IsErrorBlock block) :
    block.countP marked = 3 := by
  have hmark (text : String) : marked ("#error " ++ text) = true :=
    marked_append (c := '#') (by decide)
  have hempty : marked "" = false := by decide
  obtain ⟨first, second, third, rfl⟩ := h
  simp [hmark, hempty]

theorem not_infix_of_countP {lines block : List String} (hcount : lines.countP marked ≤ 2)
    (hblock : IsErrorBlock block) : ¬ block <:+: lines := by
  intro hinfix
  have hle : block.countP marked ≤ lines.countP marked := hinfix.sublist.countP_le
  rw [countP_of_isErrorBlock hblock] at hle
  omega

theorem countP_writeTemplateLine :
    (linesOf channel (s.writeTemplateLine channel)).countP marked = 0 := by
  unfold writeTemplateLine
  split
  · split
    · rfl
    · simp [marked]
  · split
    · dsimp only
      split
      · simp [marked, String.toList_append]
      · simp [marked, String.toList_append]
    · rfl

theorem marked_storing (value : String) : marked (s.storing value) = false := by
  unfold storing addStatement itemStatement marked
  dsimp only
  split_ifs <;> simp [String.toList_append]

theorem countP_body (value : String) : (s.body value).countP marked = 0 := by
  have hend : marked "  \x7d" = false := by decide
  unfold body
  split
  · have hloop :
        marked ("  for (const auto& " ++ loopVariable ++ " : " ++ s.paramName ++ ") \x7b") =
          false := by
      simp [marked, String.toList_append]
    simp [hloop, hend, marked_storing]
  · simp [marked_storing]

theorem countP_guardOf (predicate : String) : (s.guardOf predicate).countP marked = 0 := by
  unfold guardOf recordingGuard droppingGuard
  split
  · simp [marked, String.toList_append]
  · simp [marked, String.toList_append]

/-- The overload for other builders has one line that begins with the name of the class. -/
theorem overload_cases :
    s.overload = [] ∨ ∃ type params args,
      s.overload = ["", "template <", "    class Builder,",
          "    class = std::enable_if_t<std::is_same_v<",
          "        std::invoke_result_t<",
          "            decltype(&Builder::MaybeGetRawData), Builder>,",
          "        absl::StatusOr<" ++ type ++ ">>>>",
          s.context.className ++ "& " ++ s.methodName ++ "(" ++ params ++ ") \x7b",
          "  auto value = std::move(builder).MaybeGetRawData();",
          "  if (value.ok()) \x7b",
          "    " ++ s.methodName ++ "(" ++ args ++ ");",
          "  \x7d else \x7b",
          "    UpdateStatus(value.status());",
          "  \x7d",
          "  return *this;",
          "\x7d",
          ""] := by
  unfold overload writeSetFromBuilder
  cases s.context.makeInterface with
  | true => exact Or.inl rfl
  | false =>
    cases s.setsFromBuilder with
    | false => exact Or.inl rfl
    | true =>
      dsimp only
      exact Or.inr ⟨_, _, _, Emit.linesOf_lines _ _⟩

theorem countP_overload : s.overload.countP marked ≤ 1 := by
  rcases s.overload_cases with hnone | ⟨type, params, args, hlines⟩
  · simp [hnone]
  · have hresult : marked ("        absl::StatusOr<" ++ type ++ ">>>>") = false := by
      rw [String.append_assoc]
      exact marked_append (c := ' ') (by decide)
    have hcall : marked ("    " ++ s.methodName ++ "(" ++ args ++ ");") = false := by
      simp only [String.append_assoc]
      exact marked_append (c := ' ') (by decide)
    simp only [hlines, List.countP_cons, List.countP_nil, hresult, hcall]
    generalize marked (s.context.className ++ "& " ++ s.methodName ++ "(" ++ params ++ ") \x7b") =
      named
    cases named <;> decide +kernel

theorem IsMethod.countP_le {lines : List String} (h : s.IsMethod channel lines) :
    lines.countP marked ≤ 2 := by
  have htemplate : (linesOf channel (s.writeTemplateLine channel)).countP marked = 0 :=
    countP_writeTemplateLine
  cases h with
  | declared _ =>
    have hoverload : s.overload.countP marked ≤ 1 := countP_overload
    rw [List.countP_append, List.countP_cons, htemplate]
    split
    · omega
    · omega
  | defined _ value guard _ hguard =>
    have hguarded : guard.countP marked = 0 := by
      by_cases hnone : guard = []
      · rw [hnone]
        rfl
      · obtain ⟨predicate, -, rfl⟩ := hguard hnone
        exact countP_guardOf predicate
    have hend : ["  return *this;", "\x7d", ""].countP marked = 0 := by decide +kernel
    have hempty : marked "" = false := by decide
    simp only [List.cons_append, List.countP_cons, List.countP_append, hempty, htemplate, hguarded,
      countP_body, hend, List.countP_nil]
    split
    · decide
    · decide

end Marks

section Generation

theorem IsMethod.ne_nil {lines : List String} (h : s.IsMethod channel lines) : lines ≠ [] := by
  cases h with
  | declared _ => simp
  | defined _ _ _ _ _ => simp

theorem exists_reportsTo (h : s.options.mode ≠ .skip) : ∃ channel, s.reportsTo channel = true := by
  have hplace (mode : OutputMode) (hshown : mode ≠ .skip) :
      mode.traits.header = true ∨ mode.traits.source = true := by
    cases mode <;> simp_all [OutputMode.traits]
  rcases hplace s.options.mode h with hheader | hsource
  · exact ⟨.header, hheader⟩
  · exact ⟨.source, hsource⟩

theorem linesOf_write_elsewhere (hmode : s.options.mode ≠ .skip) (hsensible : s.conflict? = none)
    (h : s.write.result = .ok ()) (hnone : s.reportsTo channel = false) :
    linesOf channel s.write = [] := by
  obtain ⟨-, -, hlines⟩ := parts_of_write channel hmode hsensible h
  rw [hlines]
  cases channel with
  | header =>
    have hpart : s.headerPart = pure () := by
      rw [headerPart, show s.traits.header = false from hnone]
      rfl
    rw [hpart, staysIn_sourcePart .header (by decide), staysIn_interfacePart .header (by decide)]
    rfl
  | source =>
    have hpart : s.sourcePart = pure () := by
      rw [sourcePart, show s.traits.source = false from hnone]
      rfl
    rw [hpart, staysIn_headerPart .source (by decide), staysIn_interfacePart .source (by decide)]
    rfl
  | interface =>
    have hpart : s.interfacePart = pure () := by
      rw [interfacePart, show s.context.makeInterface = false from hnone]
      rfl
    rw [hpart, staysIn_headerPart .interface (by decide), staysIn_sourcePart .interface (by decide)]
    rfl

theorem isMethod_of_defined (hdefined : s.DefinedIn channel) (h : s.write.result = .ok ()) :
    s.IsMethod channel (linesOf channel s.write) := by
  obtain ⟨value, guard, hvalue, hguard, hlines⟩ := linesOf_definition hdefined h
  rw [hlines]
  exact .defined hdefined value guard hvalue hguard

theorem isMethod_of_reportsTo (hmode : s.options.mode ≠ .skip) (hsensible : s.conflict? = none)
    (h : s.write.result = .ok ()) (hreports : s.reportsTo channel = true) :
    s.IsMethod channel (linesOf channel s.write) := by
  cases channel with
  | header =>
    by_cases hdefined : s.DefinedIn .header
    · exact isMethod_of_defined hdefined h
    · have hplain : s.traits.template = false := by
        by_contra htemplate
        rw [Bool.not_eq_false] at htemplate
        exact hdefined ⟨hsensible, Or.inl ⟨rfl, hreports, Or.inl htemplate⟩⟩
      have hlines : linesOf .header s.write =
          linesOf .header (s.writeTemplateLine .header) ++ s.declaration .header :: s.overload := by
        rw [linesOf_write_of_declared hplain hreports h, writeTemplateLine_of_plain hplain]
        rfl
      rw [hlines]
      exact .declared hdefined
  | source => exact isMethod_of_defined ⟨hsensible, Or.inr ⟨rfl, hreports⟩⟩ h
  | interface =>
    have hdeclared : ¬ s.DefinedIn .interface := by
      intro hdefined
      rcases hdefined.place with ⟨hheader, -⟩ | ⟨hsource, -⟩
      · cases hheader
      · cases hsource
    have hoverload : s.overload = [] := by
      rw [overload, show s.context.makeInterface = true from hreports]
      rfl
    rw [linesOf_write_of_interface hreports hmode hsensible h, ← hoverload]
    exact .declared hdeclared

theorem generated_of_sensible (hmode : s.options.mode ≠ .skip) (hsensible : s.conflict? = none)
    (h : s.write.result = .ok ()) : s.Generated := by
  constructor
  case placed => exact exists_reportsTo hmode
  case method => exact fun channel hreports => isMethod_of_reportsTo hmode hsensible h hreports
  case elsewhere => exact fun channel hnone => linesOf_write_elsewhere hmode hsensible h hnone
  case undiagnosed =>
    intro channel block hblock
    cases hreports : s.reportsTo channel with
    | true =>
      exact not_infix_of_countP (isMethod_of_reportsTo hmode hsensible h hreports).countP_le hblock
    | false =>
      rw [linesOf_write_elsewhere hmode hsensible h hreports]
      exact not_infix_of_countP (Nat.zero_le 2) hblock

end Generation

section Exclusion

theorem silent_of_skip (h : s.options.mode = .skip) : s.Silent := by
  intro channel
  rw [write, if_pos h]
  exact ⟨rfl, rfl⟩

theorem Diagnosed.not_silent (h : s.Diagnosed) : ¬ s.Silent := by
  intro hsilent
  obtain ⟨channel, hreports⟩ := h.placed
  obtain ⟨error, hlines⟩ := h.block channel hreports
  rw [(hsilent channel).1] at hlines
  cases hlines

theorem Generated.not_silent (h : s.Generated) : ¬ s.Silent := by
  intro hsilent
  obtain ⟨channel, hreports⟩ := h.placed
  exact (h.method channel hreports).ne_nil (hsilent channel).1

theorem Generated.not_diagnosed (h : s.Generated) : ¬ s.Diagnosed := by
  intro hdiagnosed
  obtain ⟨channel, hreports⟩ := h.placed
  exact h.undiagnosed channel _ (hdiagnosed.isErrorBlock hreports) (List.infix_refl _)

end Exclusion

/-- A field whose methods can be written is skipped without a trace, or diagnosed, or has its methods
generated. By their definitions no two of these go together, and which of them it is depends on the
mode in force, on whether the field is repeated and on whether a fixed value is in force. -/
theorem skipped_diagnosed_or_generated (s : Setter) (h : s.write.result = .ok ()) :
    (s.Silent ↔ s.options.mode = .skip) ∧ (s.Diagnosed ↔ s.Contradicts) ∧
      (s.Generated ↔ s.options.mode ≠ .skip ∧ ¬ s.Contradicts) := by
  by_cases hskip : s.options.mode = .skip
  · have hsilent : s.Silent := silent_of_skip hskip
    have hsensible : ¬ s.Contradicts := fun hcontradicts => hcontradicts.mode_ne_skip hskip
    exact ⟨iff_of_true hsilent hskip,
      iff_of_false (fun hdiagnosed => hdiagnosed.not_silent hsilent) hsensible,
      iff_of_false (fun hgenerated => hgenerated.not_silent hsilent) fun hboth => hboth.1 hskip⟩
  · by_cases hcontradicts : s.Contradicts
    · have hdiagnosed : s.Diagnosed := diagnosed_of_contradicts hcontradicts
      exact ⟨iff_of_false hdiagnosed.not_silent hskip, iff_of_true hdiagnosed hcontradicts,
        iff_of_false (fun hgenerated => hgenerated.not_diagnosed hdiagnosed)
          fun hboth => hboth.2 hcontradicts⟩
    · have hgenerated : s.Generated :=
        generated_of_sensible hskip (conflict?_eq_none_iff.2 hcontradicts) h
      exact ⟨iff_of_false hgenerated.not_silent hskip,
        iff_of_false hgenerated.not_diagnosed hcontradicts,
        iff_of_true hgenerated ⟨hskip, hcontradicts⟩⟩

/-- A number of which there is one, with a method that would take several and with a conversion over
two lines. The block stands in the header and in the interface, and quotes the conversion in a
single line. -/
theorem skipped_diagnosed_or_generated_foreach :
    let raw : FieldOptions := { conversion := some "A(\n@value@)", output := some .foreach }
    let context : SetterContext :=
      { typeMap := {}, pool := {}, className := "B", dataParent := "data_.", nameParent := ""
        makeInterface := true }
    let field : Schema.Field :=
      { name := "x", fullName := "M.x", number := 1, kind := .int32, label := .optional
        container := ⟨"m.proto", [0]⟩, typeName := "", target := .scalar, default := none
        annotations := [] }
    ∃ s, ofOptions context field raw = .ok s ∧ s.write.result = .ok () ∧
      (s.Diagnosed ∧ ¬ s.Silent ∧ ¬ s.Generated) ∧
      linesOf .interface s.write = linesOf .header s.write ∧
      linesOf .header s.write =
        ["", "#error Cannot use 'output: FOREACH' with a non repeated field.",
          "#error Field: M.x",
          "#error FieldBuilderOptions: <conversion: \"A(\\n@value@)\" output: FOREACH>", ""] := by
  intro raw context field
  let s : Setter :=
    ⟨context, field, raw, none, (raw.overType {}).withFieldType (context.pool.cppType field)⟩
  have hs : ofOptions context field raw = .ok s := by
    have hnone : context.typeMap.typeInfo (context.pool.optionsKey raw field) = .ok none := by
      decide +kernel
    rw [ofOptions, hnone]
    rfl
  have hwritten : s.write.result = .ok () := by decide +kernel
  have hcontradicts : s.Contradicts := Or.inl ⟨by decide +kernel, by decide +kernel⟩
  obtain ⟨hsilent, hdiagnosed, hgenerated⟩ := skipped_diagnosed_or_generated s hwritten
  have hmode : s.options.mode = .foreach := by decide +kernel
  refine ⟨s, hs, hwritten, ⟨hdiagnosed.2 hcontradicts, ?_, ?_⟩, by decide +kernel,
    by decide +kernel⟩
  · intro hnone
    rw [hsilent, hmode] at hnone
    cases hnone
  · intro hmade
    exact (hgenerated.1 hmade).2 hcontradicts

end Setter

end FluentGen
