import FluentGen.Proofs.Emit.Alike
import FluentGen.Proofs.Schema.Reannotated
import FluentGen.Proofs.Setter.Declaration
import FluentGen.Proofs.Setter.Layers

/-!
The methods of a field in a schema with other annotations. What they are made from does not depend
on the annotations of the schema, and of the options that they are written for it does not depend on
the macro. An error block quotes the options with the macro, so that it is left out here.
-/

namespace FluentGen

open Schema (Field Pool)

def SetterContext.reannotate (g : Field → List FieldOptions) (c : SetterContext) : SetterContext :=
  { c with pool := c.pool.reannotate g }

namespace Setter

/-- The methods in a schema with other annotations, for options with another macro. -/
def reannotate (g : Field → List FieldOptions) (macroKey : Option String) (s : Setter) : Setter where
  context := s.context.reannotate g
  field := s.field.reannotate g
  raw := s.raw.withMacro macroKey
  typeInfo := s.typeInfo
  options := s.options.withMacro (macroKey <|> (s.typeInfo.getD {}).macroKey)

section Readings

variable (g : Field → List FieldOptions) (macroKey : Option String) (s : Setter)

@[simp] theorem traits_reannotate : (s.reannotate g macroKey).traits = s.traits := rfl

@[simp] theorem isMap_reannotate : (s.reannotate g macroKey).isMap = s.isMap :=
  s.context.pool.isMap_reannotate g s.field

@[simp] theorem fieldType_reannotate : (s.reannotate g macroKey).fieldType = s.fieldType :=
  s.context.pool.cppType_reannotate g s.field

@[simp] theorem setsFromBuilder_reannotate :
    (s.reannotate g macroKey).setsFromBuilder = s.setsFromBuilder := by
  simp only [setsFromBuilder, isMap_reannotate]
  simp [reannotate, SetterContext.reannotate]

@[simp] theorem insertsIntoMap_reannotate :
    (s.reannotate g macroKey).insertsIntoMap = s.insertsIntoMap := by
  simp only [insertsIntoMap, isMap_reannotate, traits_reannotate]

@[simp] theorem relativeFieldType_reannotate :
    (s.reannotate g macroKey).relativeFieldType = s.relativeFieldType := by
  simp only [relativeFieldType, fieldType_reannotate]
  rfl

@[simp] theorem rawType_reannotate : (s.reannotate g macroKey).rawType = s.rawType := by
  simp only [rawType, fieldType_reannotate]
  rfl

@[simp] theorem apply_reannotate (expression value : String) :
    (s.reannotate g macroKey).apply expression value = s.apply expression value := by
  simp only [apply, replacements, relativeFieldType_reannotate]
  rfl

@[simp] theorem parameterType_reannotate (byReference : Bool) :
    (s.reannotate g macroKey).parameterType byReference = s.parameterType byReference := by
  simp only [parameterType, isMap_reannotate, rawType_reannotate, traits_reannotate]
  rfl

@[simp] theorem methodName_reannotate :
    (s.reannotate g macroKey).methodName = s.methodName := by
  simp only [methodName, isMap_reannotate]
  rfl

@[simp] theorem valueParam_reannotate :
    (s.reannotate g macroKey).valueParam = s.valueParam := by
  simp only [valueParam, parameterType_reannotate, isMap_reannotate, traits_reannotate]
  rfl

@[simp] theorem methodParam_reannotate (channel : Channel) :
    (s.reannotate g macroKey).methodParam channel = s.methodParam channel := by
  simp only [methodParam, valueParam_reannotate]
  rfl

@[simp] theorem setValue_reannotate : (s.reannotate g macroKey).setValue = s.setValue := by
  simp only [setValue, apply_reannotate, unconverted, insertsIntoMap_reannotate,
    traits_reannotate]
  rfl

@[simp] theorem predicate_reannotate : (s.reannotate g macroKey).predicate = s.predicate := by
  simp only [predicate, apply_reannotate, predicateValue, insertsIntoMap_reannotate]
  rfl

end Readings

section Steps

variable (g : Field → List FieldOptions) (macroKey : Option String) (s : Setter)

@[simp] theorem writeTemplateLine_reannotate (channel : Channel) :
    (s.reannotate g macroKey).writeTemplateLine channel = s.writeTemplateLine channel := by
  simp only [writeTemplateLine, isMap_reannotate, parameterType_reannotate,
    relativeFieldType_reannotate, traits_reannotate]

@[simp] theorem writeSetFromBuilder_reannotate :
    (s.reannotate g macroKey).writeSetFromBuilder = s.writeSetFromBuilder := by
  let pool := s.context.pool
  have hkey : (pool.reannotate g).mapKey? (s.field.reannotate g) =
      (pool.mapKey? s.field).map (Field.reannotate g) := pool.mapKey?_reannotate g s.field
  have hvalue : (pool.reannotate g).mapValue? (s.field.reannotate g) =
      (pool.mapValue? s.field).map (Field.reannotate g) := pool.mapValue?_reannotate g s.field
  have htext (f : Option Field) :
      (f.map (Field.reannotate g)).any (·.kind == .string) = f.any (·.kind == .string) := by
    cases f with
    | none => rfl
    | some f => rfl
  have htype (f : Option Field) :
      ((f.map (Field.reannotate g)).map (pool.reannotate g).cppType).getD "" =
        (f.map pool.cppType).getD "" := by
    cases f with
    | none => rfl
    | some f => exact pool.cppType_reannotate g f
  have hcontext : (s.reannotate g macroKey).context = s.context.reannotate g := rfl
  have hpool : (s.context.reannotate g).pool = pool.reannotate g := rfl
  have hfield : (s.reannotate g macroKey).field = s.field.reannotate g := rfl
  have hclass : (s.context.reannotate g).className = s.context.className := rfl
  unfold writeSetFromBuilder
  simp only [setsFromBuilder_reannotate, isMap_reannotate, methodName_reannotate,
    rawType_reannotate, hcontext, hpool, hfield, hclass, hkey, hvalue, htext, htype]
  rfl

@[simp] theorem writeDeclaration_reannotate (channel : Channel) :
    (s.reannotate g macroKey).writeDeclaration channel = s.writeDeclaration channel := by
  simp only [writeDeclaration, writeTemplateLine_reannotate, methodName_reannotate,
    methodParam_reannotate, writeSetFromBuilder_reannotate]
  rfl

@[simp] theorem writeBody_reannotate (channel : Channel) :
    (s.reannotate g macroKey).writeBody channel = s.writeBody channel := by
  simp only [writeBody, setValue_reannotate, insertsIntoMap_reannotate, isMap_reannotate,
    traits_reannotate, itemStatement, fieldType_reannotate]
  rfl

@[simp] theorem writePredicate_reannotate (channel : Channel) :
    (s.reannotate g macroKey).writePredicate channel = s.writePredicate channel := by
  simp only [writePredicate, predicate_reannotate]
  rfl

@[simp] theorem writeImplementation_reannotate (channel : Channel) :
    (s.reannotate g macroKey).writeImplementation channel = s.writeImplementation channel := by
  simp only [writeImplementation, methodName_reannotate, methodParam_reannotate,
    writeTemplateLine_reannotate, writePredicate_reannotate, writeBody_reannotate]
  rfl

@[simp] theorem conflict?_reannotate :
    (s.reannotate g macroKey).conflict? = s.conflict? := rfl

@[simp] theorem addIncludes_reannotate :
    (s.reannotate g macroKey).addIncludes = s.addIncludes := by
  have hkey : (s.context.pool.reannotate g).optionsKey (s.raw.withMacro macroKey)
      (s.field.reannotate g) = s.context.pool.optionsKey s.raw s.field :=
    s.context.pool.optionsKey_reannotate g s.raw s.field
  unfold addIncludes
  simp only [reannotate, SetterContext.reannotate, hkey]
  rfl

end Steps

section Alike

variable (g : Field → List FieldOptions) (macroKey : Option String) (s : Setter)

/-- The methods are made in the same cases, and for the same options but for the macro. -/
theorem ofOptions_reannotate (context : SetterContext) (field : Field) (o : FieldOptions) :
    ofOptions (context.reannotate g) (field.reannotate g) (o.withMacro macroKey) =
      (ofOptions context field o).map (reannotate g macroKey) := by
  have hkey : (context.pool.reannotate g).optionsKey (o.withMacro macroKey) (field.reannotate g) =
      context.pool.optionsKey o field := context.pool.optionsKey_reannotate g o field
  have htype : (context.pool.reannotate g).cppType (field.reannotate g) =
      context.pool.cppType field := context.pool.cppType_reannotate g field
  have hoptions (below : FieldOptions) (type : String) :
      ((o.withMacro macroKey).overType below).withFieldType type =
        ((o.overType below).withFieldType type).withMacro (macroKey <|> below.macroKey) := by
    rw [FieldOptions.withFieldType_overType, FieldOptions.withFieldType_overType]
    rfl
  unfold ofOptions
  simp only [SetterContext.reannotate, hkey, htype, hoptions]
  cases context.typeMap.typeInfo (context.pool.optionsKey o field) with
  | error failure => rfl
  | ok info => rfl

theorem alike_writeErrorLine {line line' : String} (h : SameButPolicy "" line line') :
    (s.writeErrorLine line).Alike ((s.reannotate g macroKey).writeErrorLine line') := by
  have hreports : (s.reannotate g macroKey).reportsTo = s.reportsTo := rfl
  rw [writeErrorLine_eq, writeErrorLine_eq, hreports]
  refine ⟨rfl, ?_⟩
  cases h with
  | same => exact List.forall₂_same.2 fun e _ => .same e
  | policy o other =>
    have herror (o : FieldOptions) :
        errorLine ("" ++ policyText o) = "#error " ++ policyText o := by
      rw [errorLine, String.empty_append, isEmpty_policyText, if_neg Bool.false_ne_true]
    rw [herror, herror, String.empty_append, String.empty_append, isEmpty_policyText,
      isEmpty_policyText]
    apply List.rel_append
    · exact .cons (.log _ (.policy o other)) .nil
    · rw [List.forall₂_map_left_iff, List.forall₂_map_right_iff]
      exact List.forall₂_same.2 fun channel _ => .line channel (.policy o other)

/-- An error block quotes the options; nothing else in it depends on the macro. -/
theorem alike_writeError (error : String) :
    (s.writeError error).Alike ((s.reannotate g macroKey).writeError error) := by
  have hpolicy : SameButPolicy "" (policyText s.options)
      (policyText (s.reannotate g macroKey).options) := by
    have hquoted : SameButPolicy "" ("" ++ policyText s.options)
        ("" ++ policyText (s.reannotate g macroKey).options) := .policy _ _
    rw [String.empty_append, String.empty_append] at hquoted
    exact hquoted
  have hlines : List.Forall₂ (SameButPolicy "")
      ["", error, "Field: " ++ s.field.fullName, policyText s.options, ""]
      ["", error, "Field: " ++ s.field.fullName,
        policyText (s.reannotate g macroKey).options, ""] :=
    .cons (.same _) (.cons (.same _) (.cons (.same _) (.cons hpolicy (.cons (.same _) .nil))))
  exact .each hlines fun line line' h => alike_writeErrorLine g macroKey s h

theorem alike_write : s.write.Alike (s.reannotate g macroKey).write := by
  have hmode : (s.reannotate g macroKey).options.mode = s.options.mode := rfl
  have hinterface : (s.reannotate g macroKey).context.makeInterface = s.context.makeInterface :=
    rfl
  have hcheck : s.isValidOrWriteError.Alike (s.reannotate g macroKey).isValidOrWriteError := by
    unfold isValidOrWriteError
    rw [conflict?_reannotate]
    cases s.conflict? with
    | none => exact .refl _
    | some error => exact .bind (alike_writeError g macroKey s error) fun _ => .refl _
  unfold write
  rw [hmode]
  split
  · exact .refl _
  · refine .bind hcheck fun valid => ?_
    apply Emit.Alike.of_eq
    simp only [addIncludes_reannotate, writeImplementation_reannotate,
      writeDeclaration_reannotate, traits_reannotate, hinterface]

end Alike

end Setter

end FluentGen
