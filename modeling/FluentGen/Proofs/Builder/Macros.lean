import FluentGen.Proofs.Schema.Holds
import FluentGen.Proofs.Setter.Reannotated
import FluentGen.Proofs.TypeMap.Filing

/-!
Macros are transparent. Writing out what the macro of an annotation stands for changes nothing that
the builder writes, apart from the policies that error blocks quote. There is an exception, since
the walk over the fields reads the first annotation as it stands: a macro that skips the methods of
a field does not keep the walk from the field. A macro that names a method would be another one, but
the rules for type maps do not allow it.
-/

namespace FluentGen

open Emit (linesOf)
open Schema (Field Message)

namespace TypeMap

/-- The annotation with its macro written out. -/
def unfoldMacro (map : TypeMap) (a : FieldOptions) : FieldOptions :=
  (resolveMacro map a).withMacro none

/-- An annotation that is left as it is, or whose macro is written out. -/
def WrittenOut (map : TypeMap) (a a' : FieldOptions) : Prop :=
  a' = a ∨ a' = unfoldMacro map a

instance (map : TypeMap) : DecidableRel (WrittenOut map) :=
  fun _ _ => inferInstanceAs (Decidable (_ ∨ _))

/-- What is written out names no macro, so that it is resolved to itself. -/
theorem resolveMacro_of_writtenOut {map : TypeMap} {a a' : FieldOptions}
    (h : WrittenOut map a a') :
    ∃ macroKey, resolveMacro map a' = (resolveMacro map a).withMacro macroKey := by
  rcases h with rfl | rfl
  · exact ⟨(resolveMacro map a').macroKey, rfl⟩
  · exact ⟨none, rfl⟩

theorem mode_of_writtenOut {map : TypeMap} {a a' : FieldOptions} (h : WrittenOut map a a')
    (hskip : a.mode = .skip) : a'.mode = .skip := by
  rcases h with rfl | rfl
  · exact hskip
  · have houtput : a.output = some .skip := by
      cases hset : a.output with
      | none => simp [FieldOptions.mode, hset] at hskip
      | some mode => simpa [FieldOptions.mode, hset] using hskip
    rw [unfoldMacro, resolveMacro_eq]
    simp [FieldOptions.mode, FieldOptions.withMacro, FieldOptions.merge, houtput]

theorem name_of_keepsRules {key : String} {o : FieldOptions} (h : brokenRule? key o = none) :
    o.name = none := by
  have hrule := brokenRule?_eq_none_iff.1 h (.nameSet, o.name.isNone) (by simp [checks])
  simpa using hrule

/-- A type map that keeps the rules gives no annotation a name. -/
theorem name_of_writtenOut {map : TypeMap} (hrules : KeepsRules map) {a a' : FieldOptions}
    (h : WrittenOut map a a') : a'.name = a.name := by
  have hentry : (macroEntry map a).name = none := by
    unfold macroEntry
    dsimp only
    split
    · rfl
    · cases hget : map.get? (textOf a.macroKey) with
      | none => rfl
      | some o => exact name_of_keepsRules (hrules (_, o) ((map.mem_entries_iff (_, o)).2 hget))
  rcases h with rfl | rfl
  · rfl
  · rw [unfoldMacro, resolveMacro_eq]
    simp [FieldOptions.withMacro, FieldOptions.merge, hentry]

theorem name_first_of_writtenOut {map : TypeMap} (hrules : KeepsRules map)
    {annotations annotations' : List FieldOptions}
    (h : List.Forall₂ (WrittenOut map) annotations annotations') :
    (annotations'[0]?.getD ({} : FieldOptions)).name =
      (annotations[0]?.getD ({} : FieldOptions)).name := by
  cases h with
  | nil => rfl
  | cons hfirst hrest => exact name_of_writtenOut hrules hfirst

theorem mode_first_of_writtenOut {map : TypeMap} {annotations annotations' : List FieldOptions}
    (h : List.Forall₂ (WrittenOut map) annotations annotations')
    (hskip : (annotations[0]?.getD ({} : FieldOptions)).mode = .skip) :
    (annotations'[0]?.getD ({} : FieldOptions)).mode = .skip := by
  cases h with
  | nil => exact hskip
  | cons hfirst hrest => exact mode_of_writtenOut hfirst hskip

end TypeMap

namespace Builder

variable {b : Builder} {g : Field → List FieldOptions}

/-- The builder in a schema with other annotations. -/
def reannotate (g : Field → List FieldOptions) (b : Builder) : Builder :=
  { b with pool := b.pool.reannotate g, message := b.message.reannotate g }

/-- The fields of the builder's message and of all messages of the schema. -/
def fields (b : Builder) : List Field :=
  b.message.fields ++ b.pool.messages.flatMap (·.fields)

def Place.reannotate (g : Field → List FieldOptions) (place : Place) : Place :=
  { place with message := place.message.reannotate g }

/-- Annotations in which macros are written out, but neither one that skips a field nor one that
names a field with a message in its first annotation. -/
structure WritesOut (b : Builder) (g : Field → List FieldOptions) : Prop where
  annotations : ∀ f ∈ b.fields, List.Forall₂ (TypeMap.WrittenOut b.typeMap) f.annotations (g f)
  shown : ∀ f ∈ b.fields, (f.reannotate g).firstOptions.mode = .skip →
    f.firstOptions.mode = .skip
  named : ∀ f ∈ b.fields, f.isSingleMessage →
    textOf (f.reannotate g).firstOptions.name = textOf f.firstOptions.name

theorem mem_fields_of_target {field f : Field} {inner : Message}
    (htarget : b.pool.targetMessage? field = some inner) (hf : f ∈ inner.fields) :
    f ∈ b.fields := by
  have hmem : inner ∈ b.pool.messages := Schema.Pool.mem_messages_of_targetMessage? htarget
  exact List.mem_append_right _ (List.mem_flatMap.2 ⟨inner, hmem, hf⟩)

theorem isEmpty_annotations (h : b.WritesOut g) {field : Field} (hfield : field ∈ b.fields) :
    (field.reannotate g).annotations.isEmpty = field.annotations.isEmpty := by
  have hlength := (h.annotations field hfield).length_eq
  rw [Bool.eq_iff_iff, List.isEmpty_iff_length_eq_zero, List.isEmpty_iff_length_eq_zero, hlength]
  rfl

/-- Under the rules for type maps it is only skipping that a first annotation must do itself. -/
theorem WritesOut.of_keepsRules (hrules : TypeMap.KeepsRules b.typeMap)
    (hannotations : ∀ f ∈ b.fields,
      List.Forall₂ (TypeMap.WrittenOut b.typeMap) f.annotations (g f))
    (hshown : ∀ f ∈ b.fields, (f.reannotate g).firstOptions.mode = .skip →
      f.firstOptions.mode = .skip) : b.WritesOut g where
  annotations := hannotations
  shown := hshown
  named := by
    intro f hf _
    exact congrArg textOf (TypeMap.name_first_of_writtenOut hrules (hannotations f hf))

theorem skips_iff (h : b.WritesOut g) {field : Field} (hfield : field ∈ b.fields) :
    (field.reannotate g).firstOptions.mode = .skip ↔ field.firstOptions.mode = .skip := by
  refine ⟨h.shown field hfield, ?_⟩
  exact TypeMap.mode_first_of_writtenOut (h.annotations field hfield)

section Methods

variable (b g)

theorem alike_writeMethod (field : Field) (o : FieldOptions) (macroKey : Option String)
    (dataParent nameParent : String) (first : Bool) :
    (b.writeMethod field o dataParent nameParent first).Alike
      ((b.reannotate g).writeMethod (field.reannotate g) (o.withMacro macroKey)
        dataParent nameParent first) := by
  have hcontext : (b.reannotate g).context dataParent nameParent first =
      (b.context dataParent nameParent first).reannotate g := rfl
  unfold writeMethod
  rw [hcontext, Setter.ofOptions_reannotate]
  cases Setter.ofOptions (b.context dataParent nameParent first) field o with
  | error failure => exact .refl _
  | ok s => exact s.alike_write g macroKey

theorem allowsExpansion_reannotate (field : Field) (o : FieldOptions)
    (macroKey : Option String) :
    (b.reannotate g).allowsExpansion (field.reannotate g) (o.withMacro macroKey) =
      b.allowsExpansion field o := by
  have hkey : (b.pool.reannotate g).optionsKey (o.withMacro macroKey) (field.reannotate g) =
      b.pool.optionsKey o field := b.pool.optionsKey_reannotate g o field
  unfold allowsExpansion reannotate
  simp only [hkey]
  rfl

theorem alike_writeAnnotated (field : Field) (dataParent nameParent : String) (index : Nat)
    (expand : Bool) {annotations annotations' : List FieldOptions}
    (h : List.Forall₂ (TypeMap.WrittenOut b.typeMap) annotations annotations') :
    (b.writeAnnotated field dataParent nameParent index expand annotations).Alike
      ((b.reannotate g).writeAnnotated (field.reannotate g) dataParent nameParent index expand
        annotations') := by
  induction h generalizing index expand with
  | nil => exact .refl _
  | @cons a a' _ _ hfirst _ ih =>
    obtain ⟨macroKey, hresolved⟩ := TypeMap.resolveMacro_of_writtenOut hfirst
    have hmap : (b.reannotate g).typeMap = b.typeMap := rfl
    have hmode : ((b.typeMap.resolveMacro a).withMacro macroKey).mode =
        (b.typeMap.resolveMacro a).mode := rfl
    simp only [writeAnnotated, hmap, hresolved, hmode, allowsExpansion_reannotate]
    split
    · exact ih (index + 1) expand
    · apply Emit.Alike.bind (.refl _)
      intro allowed
      apply Emit.Alike.bind (alike_writeMethod b g _ _ _ _ _ _)
      intro _
      exact ih (index + 1) (expand && allowed)

theorem alike_writePlain (field : Field) (dataParent nameParent : String) :
    (b.writePlain field dataParent nameParent).Alike
      ((b.reannotate g).writePlain (field.reannotate g) dataParent nameParent) := by
  have htype : (b.reannotate g).pool.cppType (field.reannotate g) = b.pool.cppType field :=
    b.pool.cppType_reannotate g field
  have hmap : (b.reannotate g).typeMap = b.typeMap := rfl
  unfold writePlain
  apply Emit.Alike.bind (alike_writeMethod b g field {} none _ _ _)
  intro _
  rw [htype, hmap]
  cases b.typeMap.automaticType? (b.pool.cppType field) with
  | none => exact .refl _
  | some automatic => exact alike_writeMethod b g field automatic automatic.macroKey _ _ _

theorem alike_writeField (h : b.WritesOut g) {field : Field} (hfield : field ∈ b.fields)
    (dataParent nameParent : String) :
    (b.writeField field dataParent nameParent).Alike
      ((b.reannotate g).writeField (field.reannotate g) dataParent nameParent) := by
  unfold writeField
  rw [isEmpty_annotations h hfield]
  split
  · apply Emit.Alike.bind (alike_writePlain b g field dataParent nameParent)
    intro _
    exact .refl _
  · exact alike_writeAnnotated b g field dataParent nameParent 0 _ (h.annotations field hfield)

end Methods

section Walk

/-- Walks from corresponding places that are alike. -/
def AlikeFrom (b : Builder) (g : Field → List FieldOptions) (enter enter' : Place → Emit Unit) :
    Prop :=
  ∀ place, (∀ f ∈ place.message.fields, f ∈ b.fields) →
    (enter place).Alike (enter' (place.reannotate g))

variable {enter enter' : Place → Emit Unit}

theorem into_reannotate (h : b.WritesOut g) {field : Field} (hfield : field ∈ b.fields)
    (hsingle : field.isSingleMessage = true) (place : Place) (inner : Message) :
    (place.reannotate g).into (field.reannotate g) (inner.reannotate g) =
      (place.into field inner).reannotate g := by
  have hname : textOf (field.reannotate g).firstOptions.name = textOf field.firstOptions.name :=
    h.named field hfield hsingle
  unfold Place.into
  rw [hname]
  rfl

theorem alike_walkInto (h : b.WritesOut g) (henter : AlikeFrom b g enter enter') (place : Place)
    {field : Field} (hfield : field ∈ b.fields) (expand : Bool) :
    (b.walkInto enter place field expand).Alike
      ((b.reannotate g).walkInto enter' (place.reannotate g) (field.reannotate g) expand) := by
  have htarget : (b.reannotate g).pool.targetMessage? (field.reannotate g) =
      (b.pool.targetMessage? field).map (Message.reannotate g) :=
    b.pool.targetMessage?_reannotate g field
  have hkind : (field.reannotate g).isSingleMessage = field.isSingleMessage := rfl
  unfold walkInto
  rw [htarget, hkind]
  by_cases hentered : (expand && field.isSingleMessage) = true
  · rw [if_pos hentered, if_pos hentered]
    have hsingle : field.isSingleMessage = true := (Bool.and_eq_true_iff.1 hentered).2
    cases hinner : b.pool.targetMessage? field with
    | none => exact .refl _
    | some inner =>
      apply Emit.Alike.bind (.refl _)
      intro _
      rw [into_reannotate h hfield hsingle]
      apply henter
      intro f hf
      exact mem_fields_of_target hinner hf
  · rw [if_neg hentered, if_neg hentered]
    exact .refl _

theorem needsMapValue_reannotate (field : Field) :
    (b.reannotate g).needsMapValue (field.reannotate g) = b.needsMapValue field := by
  have hvalue : (b.reannotate g).pool.mapValueMessage? (field.reannotate g) =
      (b.pool.mapValueMessage? field).map (Message.reannotate g) :=
    b.pool.mapValueMessage?_reannotate g field
  unfold needsMapValue
  rw [hvalue]
  cases b.pool.mapValueMessage? field with
  | none => rfl
  | some value => rfl

theorem alike_walkField (h : b.WritesOut g) (henter : AlikeFrom b g enter enter') (place : Place)
    {field : Field} (hfield : field ∈ b.fields) :
    (b.walkField b.writeVisit enter place field).Alike
      ((b.reannotate g).walkField (b.reannotate g).writeVisit enter' (place.reannotate g)
        (field.reannotate g)) := by
  unfold walkField
  by_cases hskip : field.firstOptions.mode = .skip
  · rw [if_pos hskip, if_pos ((skips_iff h hfield).2 hskip)]
    exact .refl _
  · rw [if_neg hskip, if_neg fun hnew => hskip ((skips_iff h hfield).1 hnew)]
    apply Emit.Alike.bind (alike_writeField b g h hfield _ _)
    intro expand
    apply Emit.Alike.bind (alike_walkInto h henter place hfield expand)
    intro _
    exact .of_eq (needsMapValue_reannotate field)

theorem alike_walkFields (h : b.WritesOut g) (henter : AlikeFrom b g enter enter') (place : Place)
    {fields : List Field} (hfields : ∀ f ∈ fields, f ∈ b.fields) :
    (b.walkFields b.writeVisit enter place fields).Alike
      ((b.reannotate g).walkFields (b.reannotate g).writeVisit enter' (place.reannotate g)
        (fields.map (Field.reannotate g))) := by
  induction fields with
  | nil => exact .refl _
  | cons field rest ih =>
    have hfield : field ∈ b.fields := hfields field List.mem_cons_self
    apply Emit.Alike.bind (alike_walkField h henter place hfield)
    intro _
    apply ih
    intro f hf
    exact hfields f (List.mem_cons_of_mem field hf)

-- The induction is on the fuel: a message is walked through alike if the messages in it are.
theorem alike_walkMessage (h : b.WritesOut g) (fuel : Nat) (path : List Schema.Address) :
    AlikeFrom b g (b.walkMessage b.writeVisit fuel path)
      ((b.reannotate g).walkMessage (b.reannotate g).writeVisit fuel path) := by
  induction fuel generalizing path with
  | zero => exact fun place hfields => .refl _
  | succ fuel ih =>
    intro place hfields
    have hdepth : (b.reannotate g).setup = b.setup := rfl
    have haddress : (place.reannotate g).message.address = place.message.address := rfl
    have hname : (place.reannotate g).message.fullName = place.message.fullName := rfl
    have hneeds : (b.reannotate g).needsOfOptions = b.needsOfOptions := rfl
    simp only [walkMessage, hdepth, haddress, hname, hneeds]
    split
    · exact .refl _
    · split
      · exact .refl _
      · apply Emit.Alike.bind (.refl _)
        intro _
        exact alike_walkFields h (ih _) place hfields

theorem alike_write (h : b.WritesOut g) : b.write.Alike (b.reannotate g).write := by
  have hcount : (b.reannotate g).pool.messages.length = b.pool.messages.length :=
    b.pool.length_messages_reannotate g
  unfold write walk
  rw [hcount]
  have hroot : ∀ f ∈ b.root.message.fields, f ∈ b.fields :=
    fun f hf => List.mem_append_left _ hf
  apply Emit.Alike.bind (.refl _)
  intro _
  apply Emit.Alike.bind (alike_walkMessage h _ [] b.root hroot)
  intro _
  exact .refl _

end Walk

/-- Writing out macros leaves the run as it is: it ends the same way, a buffer collects the same
includes, and the lines of every channel are the same but for the policies that error blocks quote.
The macros of first annotations that skip a field or name one with a message stay. -/
theorem macros_transparent (b : Builder) (g : Field → List FieldOptions) (h : b.WritesOut g) :
    (b.reannotate g).write.result = b.write.result ∧
      ∀ buffer channel,
        (collect buffer (b.reannotate g).write.out).includes.get channel =
          (collect buffer b.write.out).includes.get channel ∧
        List.Forall₂ (SameButPolicy (indents.get channel ++ "#error "))
          ((collect buffer b.write.out).lines.get channel)
          ((collect buffer (b.reannotate g).write.out).lines.get channel) := by
  have halike := alike_write h
  refine ⟨halike.result, ?_⟩
  intro buffer channel
  exact collect_alike halike.out buffer channel

/-- A type map with three macros: for a predicate with its include, for a mode, and for skipping. -/
def macroMap : TypeMap :=
  KeyMap.ofList
    [("$checked", { predicate := some "Check(@value@)", includes := ["check.h"] }),
      ("$each", { output := some .foreach }),
      ("$hidden", { output := some .skip })]

/-- The builder of a message with a number, a text and a message in it, with their annotations. -/
def annotated (onNumber onText onMessage : List FieldOptions) : Builder :=
  let field (name : String) (kind : Schema.FieldKind) (target : Schema.Target)
      (annotations : List FieldOptions) : Field :=
    { name, fullName := "A." ++ name, number := 1, kind, label := .optional
      container := ⟨"a.proto", [0]⟩, typeName := "", target, default := none, annotations }
  let message (name : String) (index : Nat) (fields : List Field) : Message :=
    { address := ⟨"a.proto", [index]⟩, name, fullName := name, container := none
      enclosing := [], outermost := name, fields, enums := [], isMapEntry := false
      options := none }
  let inner := message "B" 1 [field "x" .int32 .scalar []]
  let a := message "A" 0
    [field "n" .int32 .scalar onNumber, field "text" .string .scalar onText,
      field "b" .message (.message inner.address) onMessage]
  ofMessage macroMap { messages := [a, inner] } [] a

/-- The macros of a number, of a text, for which the mode makes no sense, and of the second methods
of a message can all be written out. Only the quoted policy shows it. -/
theorem macros_transparent_annotated :
    let b := annotated [{ macroKey := some "$checked" }] [{ macroKey := some "$each" }]
      [{ name := some "Inner" }, { macroKey := some "$hidden" }]
    let g := fun f : Field => f.annotations.map macroMap.unfoldMacro
    (collect {} (b.reannotate g).write.out).includes.get .header =
        (collect {} b.write.out).includes.get .header ∧
      List.Forall₂ (SameButPolicy ("  " ++ "#error "))
        ((collect {} b.write.out).lines.get .header)
        ((collect {} (b.reannotate g).write.out).lines.get .header) ∧
      linesOf .header b.write =
        ["ABuilder& SetN(int32_t value);", "",
          "#error Cannot use 'output: FOREACH' with a non repeated field.",
          "#error Field: A.text", "#error FieldBuilderOptions: <output: FOREACH macro: \"$each\">",
          "", "ABuilder& SetInner(B value);", "ABuilder& SetInnerX(int32_t value);", ""] := by
  intro b g
  have hrules : TypeMap.KeepsRules b.typeMap := by
    unfold TypeMap.KeepsRules
    decide +kernel
  have hwrites : b.WritesOut g := .of_keepsRules hrules (by decide +kernel) (by decide +kernel)
  have hsame := (macros_transparent b g hwrites).2 {} .header
  exact ⟨hsame.1, hsame.2, by decide +kernel⟩

-- The macro of a first annotation that skips the message leaves the fields in it; written out, it
-- does not.
example :
    let b := annotated [] [] [{ macroKey := some "$hidden" }]
    let g := fun f : Field => f.annotations.map macroMap.unfoldMacro
    linesOf .header b.write =
        ["ABuilder& SetN(int32_t value);", "ABuilder& SetText(const std::string& value);",
          "ABuilder& SetBX(int32_t value);", ""] ∧
      linesOf .header (b.reannotate g).write =
        ["ABuilder& SetN(int32_t value);", "ABuilder& SetText(const std::string& value);", ""] := by
  decide +kernel

end Builder

end FluentGen
