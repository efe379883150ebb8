import FluentGen.Options.Basic
import FluentGen.Options.Slot

/-!
Options in the text format. Writing lists exactly the options that are set, in the order of their
numbers in the schema of the annotations. Reading accepts every order, but a scalar may be set only
once, and an unknown name is an error; of two map entries with the same key the last one counts.
-/

namespace FluentGen

open TextFormat (Field Value)

/-- The output mode behind a colon, by number or by name. -/
def OutputMode.ofValue? (colon : Bool) (value : Value) : Option OutputMode := do
  let spelling ← value.atom? colon
  match Value.integer? spelling with
  | some n => if n < 0 then none else ofNumber? n.toNat
  | none => ofName? spelling

/-- Output modes are written by name. -/
def Codec.mode : Codec OutputMode := ⟨fun mode => .atom mode.name, OutputMode.ofValue?⟩

namespace FieldOptions

/-- The options of a field by the names that they have in the text format. -/
def slots : List (Slot FieldOptions) := [
  .single "type" .text (.mk type fun o x => { o with type := x }),
  .single "decorated_type" .text (.mk decoratedType fun o x => { o with decoratedType := x }),
  .single "name" .text (.mk name fun o x => { o with name := x }),
  .single "value" .text (.mk value fun o x => { o with value := x }),
  .single "conversion" .text (.mk conversion fun o x => { o with conversion := x }),
  .single "predicate" .text (.mk predicate fun o x => { o with predicate := x }),
  .repeated "include" (.mk includes fun o x => { o with includes := x }),
  .repeated "source_include" (.mk sourceIncludes fun o x => { o with sourceIncludes := x }),
  .single "output" .mode (.mk output fun o x => { o with output := x }),
  .mapped "data" .text "" (.mk data fun o x => { o with data := x }),
  .single "add_source_location" .flag
    (.mk addSourceLocation fun o x => { o with addSourceLocation := x }),
  .single "override" .flag (.mk override fun o x => { o with override := x }),
  .single "recurse" .flag (.mk recurse fun o x => { o with recurse := x }),
  .single "automatic" .flag (.mk automatic fun o x => { o with automatic := x }),
  .single "macro" .text (.mk macroKey fun o x => { o with macroKey := x }),
  .single "param" .text (.mk param fun o x => { o with param := x }),
  .repeated "dependency" (.mk dependencies fun o x => { o with dependencies := x })]

/-- The fields of the options that are set. -/
def toFields (o : FieldOptions) : List Field :=
  Slot.toFields slots o

/-- Options from the fields of a message. -/
def ofFields? (fields : List Field) : Option FieldOptions :=
  Slot.addFields slots {} fields

/-- Reads options. -/
def read? (text : String) : Option FieldOptions := do
  ofFields? (← TextFormat.read? text)

/-- The options on one line. -/
def render (o : FieldOptions) : String :=
  TextFormat.render o.toFields

end FieldOptions

/-- Options stand in a message, a colon in front of which does not matter. -/
def Codec.fieldOptions : Codec FieldOptions :=
  ⟨fun o => .message o.toFields, fun _ value => value.message? >>= FieldOptions.ofFields?⟩

namespace TypeMap

/-- A type map on its own is all that is written. -/
def slots : List (Slot TypeMap) := [
  .mapped "type_map" .fieldOptions {} (.mk id fun _ map => map)]

/-- The fields of a type map. -/
def toFields (map : TypeMap) : List Field :=
  Slot.toFields slots map

/-- A type map from the fields of a message. -/
def ofFields? (fields : List Field) : Option TypeMap :=
  Slot.addFields slots {} fields

/-- Reads a type map on its own. -/
def read? (text : String) : Option TypeMap := do
  ofFields? (← TextFormat.read? text)

/-- A type map on one line. -/
def render (map : TypeMap) : String :=
  TextFormat.render (toFields map)

end TypeMap

namespace MessageOptions

/-- The options of a message by the names that they have in the text format. -/
def slots : List (Slot MessageOptions) := [
  .single "class_name" .text (.mk className fun o x => { o with className := x }),
  .single "root_data" .text (.mk rootData fun o x => { o with rootData := x }),
  .single "root_name" .text (.mk rootName fun o x => { o with rootName := x }),
  .single "use_build" .flag (.mk useBuild fun o x => { o with useBuild := x }),
  .single "use_status" .flag (.mk useStatus fun o x => { o with useStatus := x }),
  .single "use_validator" .flag (.mk useValidator fun o x => { o with useValidator := x }),
  .single "use_conversion" .flag (.mk useConversion fun o x => { o with useConversion := x }),
  .repeated "include" (.mk includes fun o x => { o with includes := x }),
  .repeated "builder_include" (.mk builderIncludes fun o x => { o with builderIncludes := x }),
  .repeated "source_include" (.mk sourceIncludes fun o x => { o with sourceIncludes := x }),
  .repeated "base_class" (.mk baseClasses fun o x => { o with baseClasses := x }),
  .mapped "type_map" .fieldOptions {} (.mk typeMap fun o x => { o with typeMap := x })]

/-- The fields of the options that are set. -/
def toFields (o : MessageOptions) : List Field :=
  Slot.toFields slots o

/-- Options from the fields of a message. -/
def ofFields? (fields : List Field) : Option MessageOptions :=
  Slot.addFields slots {} fields

/-- Reads options. -/
def read? (text : String) : Option MessageOptions := do
  ofFields? (← TextFormat.read? text)

/-- The options on one line. -/
def render (o : MessageOptions) : String :=
  TextFormat.render o.toFields

end MessageOptions

end FluentGen
