import FluentGen.Proofs.Setter.Guard

/-!
How a method is declared, and what each channel gets of a method by its output mode. A declaration
and the head of a definition are made at different times; they have the method's name and its
parameters in common, and only the declaration has the default of the source location.
-/

namespace FluentGen.Setter

open Emit (linesOf)

variable {s : Setter}

/-- The return type, the name and the parameters of the method as the class declares them. -/
def declared (s : Setter) : String :=
  s.context.className ++ "& " ++ s.methodName ++ "(" ++ s.methodParam .header ++ ")"

/-- Whether the annotation says that the method overrides another one. -/
def asksOverride (s : Setter) : Bool :=
  s.raw.override.getD false

/-- The default of the source location parameter, which a declaration has. -/
def defaultArgument (s : Setter) : String :=
  match if s.addsSourceLocation then s.sourceLocation? else none with
  | none => ""
  | some location =>
    let value := textOf location.value
    if value.isEmpty then "" else " = " ++ value

/-- What the default of the source location is added to is the parameters of the definition. -/
theorem methodParam_header :
    s.methodParam .header = s.methodParam .source ++ s.defaultArgument := by
  unfold methodParam defaultArgument
  generalize (if s.addsSourceLocation then s.sourceLocation? else none) = location
  cases location with
  | none => exact (String.append_empty).symm
  | some location =>
    simp only [sourceLocationDeclaration]
    by_cases hvalue : (textOf location.value).isEmpty = true
    · simp [hvalue]
    · simp [hvalue, String.append_assoc]

/-- The default stands behind the source location parameter, which ends both lists. -/
theorem defaultArgument_of_ne (h : s.defaultArgument ≠ "") :
    s.addsSourceLocation = true ∧ ∃ location front, s.sourceLocation? = some location ∧
      s.defaultArgument = " = " ++ textOf location.value ∧
      s.methodParam .source =
        front ++ (textOf location.type ++ " " ++ s.sourceLocationParam) := by
  have hadds : s.addsSourceLocation = true := by
    rw [← Bool.not_eq_false]
    intro hnone
    apply h
    simp [defaultArgument, hnone]
  refine ⟨hadds, ?_⟩
  unfold defaultArgument at *
  unfold methodParam
  rw [if_pos hadds] at *
  cases hlocation : s.sourceLocation? with
  | none => simp [hlocation] at h
  | some location =>
    simp only [hlocation] at h ⊢
    refine ⟨location, s.valueParam ++ (if s.valueParam.isEmpty then "" else ", "), rfl, ?_, ?_⟩
    · apply if_neg
      intro hempty
      exact h (if_pos hempty)
    · simp [sourceLocationDeclaration, String.append_assoc]

theorem signature_header :
    s.signature .header =
      s.declared ++ (if s.asksOverride then " override" else "") ++ " \x7b" := by
  unfold signature declared asksOverride
  simp

theorem signature_source :
    s.signature .source =
      s.context.className ++ "& " ++ s.context.className ++ "::" ++ s.methodName ++ "(" ++
        s.methodParam .source ++ ") \x7b" := by
  unfold signature
  simp [String.append_assoc]

/-- What a declaration has behind the parameters. In an interface the method is abstract, and it
overrides where there is one. -/
def declarationMark (s : Setter) (channel : Channel) : String :=
  if (channel ≠ .interface && s.context.makeInterface) || s.asksOverride then " override"
  else if channel = .interface && s.context.makeInterface then " =0"
  else ""

theorem declarationMark_header :
    s.declarationMark .header =
      if s.context.makeInterface || s.asksOverride then " override" else "" := by
  simp [declarationMark]

theorem declarationMark_interface (h : s.context.makeInterface = true) :
    s.declarationMark .interface = if s.asksOverride then " override" else " =0" := by
  simp [declarationMark, h]

def declaration (s : Setter) (channel : Channel) : String :=
  (if channel = .interface && s.context.makeInterface then "virtual " else "") ++
    s.declared ++ s.declarationMark channel ++ ";"

theorem writeDeclaration_eq (channel : Channel) :
    s.writeDeclaration channel = (do
      s.writeTemplateLine channel
      Emit.line channel (s.declaration channel)
      if s.context.makeInterface then pure () else s.writeSetFromBuilder) := by
  unfold writeDeclaration declaration declarationMark declared asksOverride
  simp only [String.append_assoc]

/-- The lines of the overload for other builders, which stands behind a declaration unless there is
an interface. -/
def overload (s : Setter) : List String :=
  if s.context.makeInterface then [] else linesOf .header s.writeSetFromBuilder

/-- The guard and the body of the definition, and its end. -/
def definition (s : Setter) (channel : Channel) : List String :=
  linesOf channel (s.writePredicate channel) ++ linesOf channel (s.writeBody channel) ++
    ["  return *this;", "\x7d", ""]

section Ends

variable {channel : Channel}

theorem ends_writeTemplateLine : (s.writeTemplateLine channel).result = .ok () := by
  unfold writeTemplateLine
  split
  · split
    · rfl
    · rfl
  · split
    · dsimp only
      split
      · rfl
      · rfl
    · rfl

theorem ends_writeSetFromBuilder : s.writeSetFromBuilder.result = .ok () := by
  unfold writeSetFromBuilder
  split
  · rfl
  · rfl

theorem ends_writeDeclaration : (s.writeDeclaration channel).result = .ok () := by
  rw [writeDeclaration_eq, Emit.result_bind, ends_writeTemplateLine]
  cases hinterface : s.context.makeInterface with
  | true => rfl
  | false => exact ends_writeSetFromBuilder

/-- A declaration comes with its template head and, in a header, with the overload. -/
theorem linesOf_writeDeclaration (h : channel = .header ∨ s.context.makeInterface = true) :
    linesOf channel (s.writeDeclaration channel) =
      linesOf channel (s.writeTemplateLine channel) ++ s.declaration channel :: s.overload := by
  have hends : (s.writeDeclaration channel).result = .ok () := ends_writeDeclaration
  rw [writeDeclaration_eq] at hends ⊢
  obtain ⟨_, -, hrest, htemplate⟩ := Emit.linesOf_bind channel hends
  obtain ⟨_, -, -, hdeclaration⟩ := Emit.linesOf_bind channel hrest
  rw [htemplate, hdeclaration, Emit.linesOf_line]
  unfold overload
  cases hinterface : s.context.makeInterface with
  | true => rfl
  | false =>
    have hheader : channel = .header := h.resolve_right (by rw [hinterface]; exact Bool.false_ne_true)
    rw [hheader]
    rfl

end Ends

/-!
What a channel gets of a method. A plain method is declared in the header, a template is defined
there, and a method of the source only leaves no line in the header.
-/

section Modes

theorem foreach_of_plain (mode : OutputMode) (h : mode.traits.template = false) :
    mode.traits.foreach = false := by
  cases mode <;> simp_all [OutputMode.traits]

theorem initializerList_of_plain (mode : OutputMode) (h : mode.traits.template = false) :
    mode.traits.initializerList = false := by
  cases mode <;> simp_all [OutputMode.traits]

theorem header_of_template (mode : OutputMode) (h : mode.traits.template = true) :
    mode.traits.header = true := by
  cases mode <;> simp_all [OutputMode.traits]

theorem source_of_unlisted (mode : OutputMode) (hshown : mode ≠ .skip)
    (hplain : mode.traits.template = false) (hnone : mode.traits.header = false) :
    mode = .source := by
  cases mode <;> simp_all [OutputMode.traits]

theorem mode_ne_skip_of_header (h : s.traits.header = true) : s.options.mode ≠ .skip := by
  intro hskip
  rw [traits, hskip] at h
  cases h

/-- What is no template takes one value, and a fixed one as well. -/
theorem conflict?_of_plain (h : s.traits.template = false) : s.conflict? = none := by
  have hforeach : s.traits.foreach = false := foreach_of_plain s.options.mode h
  unfold conflict?
  simp [h, hforeach]

theorem writeTemplateLine_of_plain (h : s.traits.template = false) (channel : Channel) :
    linesOf channel (s.writeTemplateLine channel) = [] := by
  have hlist : s.traits.initializerList = false := initializerList_of_plain s.options.mode h
  unfold writeTemplateLine
  simp [h, hlist]

end Modes

section Blocks

theorem linesOf_write_of_declared (hplain : s.traits.template = false)
    (hheader : s.traits.header = true) (h : s.write.result = .ok ()) :
    linesOf .header s.write = s.declaration .header :: s.overload := by
  obtain ⟨-, -, hlines⟩ := parts_of_write .header
    (mode_ne_skip_of_header hheader) (conflict?_of_plain hplain) h
  have hforeach : s.traits.foreach = false := foreach_of_plain s.options.mode hplain
  have hpart : s.headerPart = s.writeDeclaration .header := by
    simp [headerPart, hheader, hplain, hforeach]
  rw [hlines, staysIn_sourcePart .header (by decide), staysIn_interfacePart .header (by decide),
    hpart, linesOf_writeDeclaration (Or.inl rfl), writeTemplateLine_of_plain hplain]
  simp

theorem linesOf_write_of_template (htemplate : s.traits.template = true)
    (hsensible : s.conflict? = none) (h : s.write.result = .ok ()) :
    linesOf .header s.write =
      "" :: linesOf .header (s.writeTemplateLine .header) ++ [s.signature .header] ++
        s.definition .header := by
  have hheader := header_of_template s.options.mode htemplate
  have hdefined : s.DefinedIn .header := ⟨hsensible, Or.inl ⟨rfl, hheader, Or.inl htemplate⟩⟩
  obtain ⟨-, hlines⟩ := linesOf_write_of_defined hdefined h
  rw [hlines, definition]
  simp

theorem linesOf_write_of_source (hmode : s.options.mode = .source) (h : s.write.result = .ok ()) :
    linesOf .header s.write = [] := by
  have hplain : s.traits.template = false := by rw [traits, hmode]; rfl
  have hnone : s.traits.header = false := by rw [traits, hmode]; rfl
  have hshown : s.options.mode ≠ .skip := by rw [hmode]; decide
  obtain ⟨-, -, hlines⟩ := parts_of_write .header hshown (conflict?_of_plain hplain) h
  have hpart : linesOf .header s.headerPart = [] := by
    simp [headerPart, hnone]
  rw [hlines, staysIn_sourcePart .header (by decide), staysIn_interfacePart .header (by decide),
    hpart]
  rfl

theorem linesOf_write_of_definition (hplain : s.traits.template = false)
    (hsource : s.traits.source = true) (h : s.write.result = .ok ()) :
    linesOf .source s.write = "" :: s.signature .source :: s.definition .source := by
  have hdefined : s.DefinedIn .source := ⟨conflict?_of_plain hplain, Or.inr ⟨rfl, hsource⟩⟩
  obtain ⟨-, hlines⟩ := linesOf_write_of_defined hdefined h
  rw [hlines, writeTemplateLine_of_plain hplain, definition]
  simp

theorem linesOf_write_of_interface (hinterface : s.context.makeInterface = true)
    (hmode : s.options.mode ≠ .skip) (hsensible : s.conflict? = none)
    (h : s.write.result = .ok ()) :
    linesOf .interface s.write =
      linesOf .interface (s.writeTemplateLine .interface) ++ [s.declaration .interface] := by
  obtain ⟨-, -, hlines⟩ := parts_of_write .interface hmode hsensible h
  have hpart : s.interfacePart = s.writeDeclaration .interface := by
    rw [interfacePart, if_pos hinterface]
  have hoverload : s.overload = [] := by
    rw [overload, if_pos hinterface]
  rw [hlines, staysIn_headerPart .interface (by decide), staysIn_sourcePart .interface (by decide),
    hpart, linesOf_writeDeclaration (Or.inr hinterface), hoverload]
  rfl

end Blocks

/-!
Options that make no sense together leave an error block in every channel that the method would go
to, and nothing else.
-/

section Errors

/-- Whether an error block goes to a channel. -/
def reportsTo (s : Setter) : Channel → Bool
  | .header => s.traits.header
  | .source => s.traits.source
  | .interface => s.context.makeInterface

def errorLine (line : String) : String :=
  if line.isEmpty then line else "#error " ++ line

theorem writeErrorLine_eq (line : String) :
    s.writeErrorLine line =
      ⟨(if line.isEmpty then [] else [.log ⟨Log.error, line⟩]) ++
        (Channel.all.filter s.reportsTo).map fun channel => .line channel (errorLine line),
        .ok ()⟩ := by
  unfold writeErrorLine errorLine
  simp only [Channel.all, List.filter, reportsTo]
  cases line.isEmpty <;> cases s.traits.header <;> cases s.traits.source <;>
    cases s.context.makeInterface <;> rfl

theorem linesOf_writeErrorLine (channel : Channel) (line : String) :
    linesOf channel (s.writeErrorLine line) =
      if s.reportsTo channel then [errorLine line] else [] := by
  have hlog : Emit.linesTo channel
      (if line.isEmpty then [] else [.log ⟨Log.error, line⟩]) = [] := by
    split
    · rfl
    · rfl
  rw [writeErrorLine_eq, linesOf, Emit.linesTo_append, hlog, List.nil_append]
  simp only [Channel.all, List.filter]
  cases channel <;> cases s.reportsTo .header <;> cases s.reportsTo .source <;>
    cases s.reportsTo .interface <;> rfl

theorem linesOf_each_writeErrorLine (channel : Channel) (lines : List String) :
    (Emit.each lines s.writeErrorLine).result = .ok () ∧
      linesOf channel (Emit.each lines s.writeErrorLine) =
        if s.reportsTo channel then lines.map errorLine else [] := by
  induction lines with
  | nil => exact ⟨rfl, by simp [Emit.each]⟩
  | cons line rest ih =>
    obtain ⟨hends, hlines⟩ := ih
    have hboth : (Emit.each (line :: rest) s.writeErrorLine).result = .ok () := by
      rw [Emit.each, Emit.result_bind, writeErrorLine_eq]
      exact hends
    refine ⟨hboth, ?_⟩
    rw [Emit.each] at hboth ⊢
    obtain ⟨_, -, -, happend⟩ := Emit.linesOf_bind channel hboth
    rw [happend, linesOf_writeErrorLine, hlines]
    split
    · rfl
    · rfl

def errorBlock (s : Setter) (error : String) : List String :=
  ["", error, "Field: " ++ s.field.fullName,
    "FieldBuilderOptions: <" ++ s.options.render ++ ">", ""].map errorLine

theorem linesOf_writeError (channel : Channel) (error : String) :
    (s.writeError error).result = .ok () ∧
      linesOf channel (s.writeError error) =
        if s.reportsTo channel then s.errorBlock error else [] :=
  linesOf_each_writeErrorLine channel _

/-- The error block is all that is written or asked for. -/
theorem out_write_of_conflict {error : String} (hmode : s.options.mode ≠ .skip)
    (hconflict : s.conflict? = some error) : s.write.out = (s.writeError error).out := by
  obtain ⟨hends, -⟩ := linesOf_writeError (s := s) .header error
  have hcheck : s.isValidOrWriteError = s.writeError error >>= fun _ => pure false := by
    unfold isValidOrWriteError
    rw [hconflict]
  have hresult : s.isValidOrWriteError.result = .ok false := by
    rw [hcheck, Emit.result_bind, hends]
    rfl
  unfold write
  rw [if_neg hmode, Emit.out_bind hresult, hcheck, Emit.out_bind hends]
  exact (List.append_nil _).trans (List.append_nil _)

theorem linesOf_write_of_conflict {error : String} (hmode : s.options.mode ≠ .skip)
    (hconflict : s.conflict? = some error) (channel : Channel) :
    linesOf channel s.write = if s.reportsTo channel then s.errorBlock error else [] := by
  rw [linesOf, out_write_of_conflict hmode hconflict]
  exact (linesOf_writeError channel error).2

end Errors

section Interfaces

/-- The interface has the method as an abstract one. -/
structure IsAbstract (s : Setter) : Prop where
  shown : s.options.mode ≠ .skip
  sensible : s.conflict? = none
  unmarked : s.asksOverride = false

theorem declaration_interface (hinterface : s.context.makeInterface = true) :
    s.declaration .interface =
      "virtual " ++ s.declared ++ (if s.asksOverride then " override" else " =0") ++ ";" := by
  rw [declaration, declarationMark_interface hinterface]
  simp [hinterface]

theorem interface_of_abstract (habstract : s.IsAbstract)
    (hinterface : s.context.makeInterface = true) (h : s.write.result = .ok ()) :
    linesOf .interface s.write =
      linesOf .interface (s.writeTemplateLine .interface) ++
        ["virtual " ++ s.declared ++ " =0;"] := by
  rw [linesOf_write_of_interface hinterface habstract.shown habstract.sensible h,
    declaration_interface hinterface, habstract.unmarked]
  simp [String.append_assoc]

/-- What the header has of an abstract method: a declaration that overrides it, a definition that is
not marked, or nothing. -/
theorem header_of_abstract (habstract : s.IsAbstract)
    (hinterface : s.context.makeInterface = true) (h : s.write.result = .ok ()) :
    linesOf .header s.write =
      if s.traits.template then
        "" :: linesOf .header (s.writeTemplateLine .header) ++ [s.declared ++ " \x7b"] ++
          s.definition .header
      else if s.traits.header then [s.declared ++ " override;"]
      else [] := by
  split
  · next htemplate =>
    rw [linesOf_write_of_template htemplate habstract.sensible h, signature_header,
      habstract.unmarked]
    simp
  · next hplain =>
    rw [Bool.not_eq_true] at hplain
    split
    · next hheader =>
      have hoverload : s.overload = [] := by
        rw [overload, if_pos hinterface]
      rw [linesOf_write_of_declared hplain hheader h, hoverload, declaration,
        declarationMark_header, hinterface]
      simp [String.append_assoc]
    · next hnone =>
      apply linesOf_write_of_source _ h
      have hshown := habstract.shown
      rw [traits] at hplain hnone
      exact source_of_unlisted _ hshown hplain (Bool.eq_false_iff.2 hnone)

/-- A method that is not abstract is skipped, is an error, or overrides one of another class. -/
theorem interface_of_not_abstract (hnot : ¬ s.IsAbstract)
    (hinterface : s.context.makeInterface = true) (h : s.write.result = .ok ()) :
    linesOf .interface s.write = [] ∨
      (∃ error, s.conflict? = some error ∧ linesOf .interface s.write = s.errorBlock error) ∨
      linesOf .interface s.write =
        linesOf .interface (s.writeTemplateLine .interface) ++
          ["virtual " ++ s.declared ++ " override;"] := by
  by_cases hmode : s.options.mode = .skip
  · left
    rw [write, if_pos hmode]
    rfl
  right
  cases hconflict : s.conflict? with
  | some error =>
    left
    refine ⟨error, rfl, ?_⟩
    have hreports : s.reportsTo .interface = true := hinterface
    rw [linesOf_write_of_conflict hmode hconflict, if_pos hreports]
  | none =>
    right
    have hmarked : s.asksOverride = true := by
      rw [← Bool.not_eq_false]
      intro hunmarked
      exact hnot ⟨hmode, hconflict, hunmarked⟩
    rw [linesOf_write_of_interface hinterface hmode hconflict h,
      declaration_interface hinterface, hmarked]
    simp [String.append_assoc]

end Interfaces

end FluentGen.Setter
