import FluentGen.Proofs.Setter.Definition
import FluentGen.Proofs.Text.Substitution

/-!
The place that a method is called from. A method may have a parameter for it, which the calls in its
loop hand on, and a token in its expressions stands for the place. All three layers of options decide
whether there is a parameter, but only the upper two whether the token stands for it. If nothing but
the entry for the type asks for the parameter, the token stands for the place inside of the method.
-/

namespace FluentGen.Setter

open Emit (linesOf)
open Schema (Field)
open Text (CutAt Segment)

variable {s : Setter}

/-- The token that stands for the source location. -/
def locationToken : String := "@source_location@"

/-- The expression of the source location where there is no parameter for it. -/
def sourceLocationValue (s : Setter) : String :=
  s.context.typeMap.expansion (sourceLocationKey ++ "%value")

/-- Whether the token stands for the parameter. -/
def namesParameter (s : Setter) : Bool :=
  s.raw.addSourceLocation.getD false

section Expressions

theorem sourceLocationExpansion_eq :
    s.sourceLocationExpansion =
      if s.namesParameter then s.sourceLocationParam else s.sourceLocationValue := by
  unfold sourceLocationExpansion namesParameter sourceLocationParam sourceLocationValue
  cases s.raw.addSourceLocation.getD false with
  | true => rfl
  | false => rfl

theorem lookup_locationToken (value default : String) :
    (s.replacements value default).lookup locationToken = some s.sourceLocationExpansion := by
  have htype : (locationToken == TypeMap.typeToken) = false := by decide
  have hvalue : (locationToken == TypeMap.valueToken) = false := by decide
  have hdefault : (locationToken == "@default@") = false := by decide
  have hlocation : (locationToken == "@source_location@") = true := by decide
  simp only [replacements, List.cons_append, List.lookup_cons, htype, hvalue, hdefault, hlocation]

/-- The tokens that are replaced in a conversion or a predicate. -/
def tokens (s : Setter) : List String :=
  [TypeMap.typeToken, TypeMap.valueToken, "@default@", locationToken] ++
    s.options.data.entries.map fun e => "%" ++ e.1 ++ "%"

theorem map_fst_replacements (value default : String) :
    (s.replacements value default).map Prod.fst = s.tokens := by
  simp [replacements, tokens, locationToken, Function.comp_def]

/-- Wherever an expression is cut at the token of the source location, the same text is put in. -/
theorem pieces_of_apply {expression value text : String} (hgiven : expression ≠ "")
    (h : s.apply expression value = .ok text) :
    ∃ cut pieces, CutAt (s.tokens.map String.toList) expression.toList cut ∧
      text.toList = pieces.flatten ∧
      List.Forall₂ (fun segment piece => segment = Segment.token locationToken.toList →
        piece = s.sourceLocationExpansion.toList) cut pieces := by
  unfold apply at h
  rw [if_neg (by simpa using hgiven)] at h
  obtain ⟨default, -, hmade⟩ := exists_of_bind_eq_ok h
  cases hmade
  obtain ⟨pieces, hbecome, hresult⟩ :=
    Text.exists_pieces (s.replacements value default) expression
  rw [map_fst_replacements] at hbecome
  refine ⟨_, pieces, Text.cutAt_segments _ _, hresult, hbecome.imp ?_⟩
  rintro segment piece hpiece rfl
  exact hpiece.eq_of_lookup (lookup_locationToken value default)

end Expressions

section Parameters

theorem methodParam_eq {location : FieldOptions} (hlocation : s.sourceLocation? = some location)
    (channel : Channel) :
    s.methodParam channel =
      if s.addsSourceLocation then
        s.valueParam ++ (if s.valueParam.isEmpty then "" else ", ") ++
          s.sourceLocationDeclaration channel location
      else s.valueParam := by
  unfold methodParam
  rw [hlocation]
  cases s.addsSourceLocation with
  | true => rfl
  | false => rfl

/-- The call in a loop up to the end of its value. -/
def itemCall (s : Setter) (value : String) : String :=
  "    " ++ (if s.isMap then "Insert" else "Add") ++ s.camelName ++ "(" ++
    if s.isMap && (textOf s.options.conversion).isEmpty then
      s.fieldType ++ "(" ++ value ++ ".first, " ++ value ++ ".second)"
    else value

theorem itemStatement_eq (value : String) :
    s.itemStatement value =
      s.itemCall value ++ (if s.addsSourceLocation then ", " ++ s.sourceLocationParam else "") ++
        ");" := by
  have hinsert : "    Insert" = "    " ++ "Insert" := rfl
  unfold itemStatement itemCall
  generalize (if s.addsSourceLocation then ", " ++ s.sourceLocationParam else "") = last
  rw [hinsert]
  cases s.isMap <;> cases (textOf s.options.conversion).isEmpty <;> simp [String.append_assoc]

theorem body_of_items (hloops : s.loops = true) (hitems : s.traits.foreachAdd = true)
    (value : String) :
    s.body value =
      ["  for (const auto& " ++ loopVariable ++ " : " ++ s.paramName ++ ") \x7b",
        s.itemStatement value, "  \x7d"] := by
  unfold body storing
  simp [hloops, hitems]

end Parameters

section Layers

variable {context : SetterContext} {field : Field} {raw : FieldOptions}

theorem addSourceLocation_of_ofOptions (hs : ofOptions context field raw = .ok s) :
    s.options.addSourceLocation = raw.addSourceLocation.or
      ((context.typeMap.get? (context.pool.optionsKey raw field)).bind (·.addSourceLocation)) := by
  obtain ⟨-, -, -, -, hoptions⟩ := parts_of_ofOptions hs
  rw [hoptions]
  cases context.typeMap.get? (context.pool.optionsKey raw field) with
  | none => simp [FieldOptions.merge]
  | some below => simp [FieldOptions.merge]

/-- The token and the parameter go together, unless the entry for the type asks for the parameter and
the layers above it say nothing. -/
theorem namesParameter_eq_iff (hs : ofOptions context field raw = .ok s) :
    s.namesParameter = s.addsSourceLocation ↔
      ¬ (raw.addSourceLocation = none ∧
        (context.typeMap.get? (context.pool.optionsKey raw field)).bind (·.addSourceLocation) =
          some true) := by
  unfold namesParameter addsSourceLocation
  rw [addSourceLocation_of_ofOptions hs, raw_of_ofOptions hs]
  cases raw.addSourceLocation with
  | some asked => simp
  | none =>
    cases (context.typeMap.get? (context.pool.optionsKey raw field)).bind (·.addSourceLocation) with
    | none => simp
    | some asked => cases asked <;> simp

theorem addSourceLocation_resolveMacro (map : TypeMap) (a : FieldOptions) :
    (map.resolveMacro a).addSourceLocation =
      a.addSourceLocation.or (map.macroEntry a).addSourceLocation := by
  rw [TypeMap.resolveMacro_eq]
  simp [FieldOptions.merge]

end Layers

/-- The parameter for the source location and what is handed on in a loop go by all three layers of
options. The token in a conversion and in a predicate stands for this parameter exactly if the upper
two ask for it, and otherwise for the value. The two agree but where the entry for the type asks for
the parameter and nothing is said above it: there the method has the parameter and the token does
not stand for it. -/
theorem location_of_method {context : SetterContext} {field : Field} {raw location : FieldOptions}
    (hs : ofOptions context field raw = .ok s)
    (hlocation : context.typeMap.get? sourceLocationKey = some location) :
    (∀ channel, s.methodParam channel =
      if s.addsSourceLocation then
        s.valueParam ++ (if s.valueParam.isEmpty then "" else ", ") ++
          s.sourceLocationDeclaration channel location
      else s.valueParam) ∧
    (∀ value, s.loops = true → s.traits.foreachAdd = true →
      s.body value =
        ["  for (const auto& " ++ loopVariable ++ " : " ++ s.paramName ++ ") \x7b",
          s.itemCall value ++
            (if s.addsSourceLocation then ", " ++ s.sourceLocationParam else "") ++ ");",
          "  \x7d"]) ∧
    (∀ expression value text, expression ≠ "" → s.apply expression value = .ok text →
      ∃ cut pieces, CutAt (s.tokens.map String.toList) expression.toList cut ∧
        text.toList = pieces.flatten ∧
        List.Forall₂ (fun segment piece => segment = Segment.token locationToken.toList →
          piece =
            (if s.namesParameter then s.sourceLocationParam else s.sourceLocationValue).toList)
          cut pieces) ∧
    (s.namesParameter = s.addsSourceLocation ↔
      ¬ (raw.addSourceLocation = none ∧
        (context.typeMap.get? (context.pool.optionsKey raw field)).bind (·.addSourceLocation) =
          some true)) ∧
    (∀ a, raw = context.typeMap.resolveMacro a →
      raw.addSourceLocation =
        a.addSourceLocation.or (context.typeMap.macroEntry a).addSourceLocation) ∧
    ∀ channel, s.DefinedIn channel → s.write.result = .ok () →
      ∃ value guard,
        s.apply (textOf s.options.conversion) s.unconverted = .ok value ∧
        (guard ≠ [] → ∃ predicate,
          s.apply (textOf s.options.predicate) s.predicateValue = .ok predicate ∧
            guard = s.guardOf predicate) ∧
        linesOf channel s.write =
          "" :: linesOf channel (s.writeTemplateLine channel) ++ [s.signature channel] ++ guard ++
            s.body value ++ ["  return *this;", "\x7d", ""] := by
  obtain ⟨-, hcontext, -, -, -⟩ := parts_of_ofOptions hs
  have hentry : s.sourceLocation? = some location := by rw [sourceLocation?, hcontext, hlocation]
  refine ⟨methodParam_eq hentry, ?_, ?_, namesParameter_eq_iff hs, ?_, ?_⟩
  · intro value hloops hitems
    rw [body_of_items hloops hitems, itemStatement_eq]
  · intro expression value text hgiven happlied
    rw [← sourceLocationExpansion_eq]
    exact pieces_of_apply hgiven happlied
  · rintro a rfl
    exact addSourceLocation_resolveMacro context.typeMap a
  · intro channel hdefined h
    exact linesOf_definition hdefined h

/-- A number without an annotation, for whose type an entry asks for the parameter and logs the place.
The definition has the parameter, and logs the place of its own body. -/
theorem location_of_method_byType :
    let entry : FieldOptions :=
      { conversion := some "Log(@value@, @source_location@)", addSourceLocation := some true }
    let context : SetterContext :=
      { typeMap := KeyMap.ofList
          [(sourceLocationKey, TypeMap.Builtin.sourceLocation), ("int32_t", entry)]
        pool := {}, className := "B", dataParent := "data_.", nameParent := "" }
    let field : Field :=
      { name := "x", fullName := "M.x", number := 1, kind := .int32, label := .optional
        container := ⟨"m.proto", [0]⟩, typeName := "", target := .scalar, default := none
        annotations := [] }
    ∃ s, ofOptions context field {} = .ok s ∧
      context.typeMap.get? sourceLocationKey = some TypeMap.Builtin.sourceLocation ∧
      s.methodParam .source =
        "int32_t value, proto_builder::oss::SourceLocation source_location" ∧
      s.sourceLocationParam = "source_location" ∧
      s.namesParameter ≠ s.addsSourceLocation ∧
      linesOf .source s.write =
        ["",
          "B& B::SetX(int32_t value, proto_builder::oss::SourceLocation source_location) \x7b",
          "  data_.set_x(Log(value, proto_builder::oss::SourceLocation::current()));",
          "  return *this;", "\x7d", ""] := by
  intro entry context field
  let below := context.typeMap.get? (context.pool.optionsKey {} field)
  let s : Setter :=
    ⟨context, field, {}, below,
      (({} : FieldOptions).overType (below.getD {})).withFieldType (context.pool.cppType field)⟩
  have hbelow : context.typeMap.typeInfo (context.pool.optionsKey {} field) = .ok below := by
    decide +kernel
  have hs : ofOptions context field {} = .ok s := by
    rw [ofOptions, hbelow]
    rfl
  have hlocation :
      context.typeMap.get? sourceLocationKey = some TypeMap.Builtin.sourceLocation := by
    decide +kernel
  obtain ⟨hparam, -, -, hagree, -⟩ := location_of_method hs hlocation
  have hasked : below.bind (·.addSourceLocation) = some true := by decide +kernel
  refine ⟨s, hs, hlocation, ?_, by decide +kernel, ?_, by decide +kernel⟩
  · rw [hparam]
    decide +kernel
  · intro hsame
    exact hagree.1 hsame ⟨rfl, hasked⟩

end FluentGen.Setter
