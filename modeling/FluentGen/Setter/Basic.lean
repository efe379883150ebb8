import FluentGen.Emit.Basic
import FluentGen.Name.Keyword
import FluentGen.Name.Style
import FluentGen.Schema.FieldType
import FluentGen.Setter.Mode
import FluentGen.TypeMap.Lookup

/-!
The methods that store a value in one field, for one set of options. The options of the annotation
are laid over those that the type map has for their type; a type that the type map provides
replaces the one of the annotation.
-/

namespace FluentGen

open Schema (Field Pool)

/-- What surrounds the methods of a field. -/
structure SetterContext where
  typeMap : TypeMap
  pool : Pool
  /-- The package in whose namespace the methods stand. -/
  package : List String := []
  className : String
  /-- The expression in front of the accessors. -/
  dataParent : String
  /-- What the method names begin with. -/
  nameParent : String
  useGetRawData : Bool := false
  makeInterface : Bool := false
  /-- Whether these are the first methods of the field. -/
  firstMethod : Bool := false
  useStatus : Bool := false

/-- The methods of a field: the options of the annotation, what the type map says about their
type, and the options that result. -/
structure Setter where
  context : SetterContext
  field : Field
  raw : FieldOptions
  typeInfo : Option FieldOptions
  options : FieldOptions

namespace FieldOptions

/-- Options laid over those of their type. A type that is not empty below stays. -/
def overType (o below : FieldOptions) : FieldOptions :=
  let merged := below.merge o
  if (textOf below.type).isEmpty then merged else { merged with type := below.type }

/-- Options with the token for the type replaced in their own type. -/
def withFieldType (o : FieldOptions) (type : String) : FieldOptions :=
  { o with type := o.type.map (Text.replace TypeMap.typeToken type) }

end FieldOptions

/-- The key of the source location in a type map. -/
def sourceLocationKey : String := "%SourceLocation"

namespace Setter

/-- The methods of a field for one set of options. The type of the options must not name a
special type. -/
def ofOptions (context : SetterContext) (field : Field) (raw : FieldOptions) :
    Except Failure Setter := do
  let typeInfo ← context.typeMap.typeInfo (context.pool.optionsKey raw field)
  let options := (raw.overType (typeInfo.getD {})).withFieldType (context.pool.cppType field)
  return { context, field, raw, typeInfo, options }

/-- The traits of the output mode in force. -/
def traits (s : Setter) : ModeTraits := s.options.mode.traits

/-- Whether the field is a map. -/
def isMap (s : Setter) : Bool := s.context.pool.isMap s.field

/-- The C++ type of an element of the field. -/
def fieldType (s : Setter) : String := s.context.pool.cppType s.field

/-- Whether the source location is passed on. -/
def addsSourceLocation (s : Setter) : Bool := s.options.addSourceLocation.getD false

/-- The fixed value that is stored. -/
def fixedValue (s : Setter) : String := textOf s.options.value

/-- Whether a value may also come from another builder: the first methods of a field whose element
is a message, in a builder that gives its data away. -/
def setsFromBuilder (s : Setter) : Bool :=
  s.context.firstMethod && s.context.useGetRawData &&
    if s.isMap then (s.context.pool.mapValueMessage? s.field).isSome
    else (s.context.pool.targetMessage? s.field).isSome

/-- Whether values are inserted into a map as they are. -/
def insertsIntoMap (s : Setter) : Bool :=
  s.isMap && (s.traits.initializerList || !s.traits.foreachAdd)

/-- The end of method names: the given one, or the field's name in camel case. -/
def camelName (s : Setter) (name : String := "") : String :=
  s.context.nameParent ++ if name.isEmpty then Name.camelCase s.field.name else name

/-- A type name as it is written in the package's namespace. -/
def relative (s : Setter) (type : String) : String :=
  Name.relativeTo s.context.package type

/-- The C++ type of an element as it is written in the package's namespace. -/
def relativeFieldType (s : Setter) : String := s.relative s.fieldType

/-- The type of the value: that of the options, or the field's. -/
def rawType (s : Setter) : String :=
  let type := textOf s.options.type
  if type.isEmpty then s.fieldType else type

/-- The expansion that a source location token stands for: the parameter if the annotation asks
for one, otherwise the value. -/
def sourceLocationExpansion (s : Setter) : String :=
  s.context.typeMap.expansion <|
    sourceLocationKey ++ if s.raw.addSourceLocation.getD false then "%param" else "%value"

/-- What the tokens of a conversion or predicate stand for. -/
def replacements (s : Setter) (value default : String) : List (String × String) :=
  [(TypeMap.typeToken, s.relativeFieldType),
    (TypeMap.valueToken, value),
    ("@default@", default),
    ("@source_location@", s.sourceLocationExpansion)]
    ++ s.options.data.entries.map fun e => ("%" ++ e.1 ++ "%", e.2)

/-- A conversion or predicate applied to a value; without one it is the value. -/
def apply (s : Setter) (expression value : String) : Except Failure String :=
  if expression.isEmpty then .ok value
  else do
    let default ← s.field.defaultExpression
    return Text.substitute (s.replacements value default) expression

/-- The type of the parameter, as a constant reference where that is asked for and pays. -/
def parameterType (s : Setter) (byReference : Bool) : String :=
  if s.traits.initializerList then
    "std::initializer_list<" ++ (if s.isMap then s.rawType else "Item") ++ ">"
  else if s.traits.template then
    Name.parameter byReference (if s.traits.foreach then "Container" else "Value")
  else
    let decorated := textOf s.options.decoratedType
    if byReference && !decorated.isEmpty then decorated
    else
      let type := s.rawType
      let pays := (Text.contains "::" type || type == "string") && s.field.kind != .enum
      Name.parameter (byReference && pays) (s.relative type)

/-- The name of the method. -/
def methodName (s : Setter) : String :=
  let name := s.camelName (textOf s.options.name)
  if s.isMap then "Insert" ++ name
  else if s.field.isRepeated then "Add" ++ name
  else "Set" ++ name

/-- The options of the source location in the type map. -/
def sourceLocation? (s : Setter) : Option FieldOptions :=
  s.context.typeMap.get? sourceLocationKey

/-- The name of the source location parameter. -/
def sourceLocationParam (s : Setter) : String :=
  s.context.typeMap.expansion (sourceLocationKey ++ "%param")

/-- The parameter for the value; none if the value is fixed. -/
def valueParam (s : Setter) : String :=
  if s.fixedValue.isEmpty then
    s.parameterType true ++ " " ++ (if s.isMap then "key_value_pair" else "value")
      ++ if s.traits.foreach then "s" else ""
  else ""

/-- The parameter for the source location; its default value is written in the header only. -/
def sourceLocationDeclaration (s : Setter) (channel : Channel) (location : FieldOptions) : String :=
  let value := textOf location.value
  textOf location.type ++ " " ++ s.sourceLocationParam
    ++ if channel = .header && !value.isEmpty then " = " ++ value else ""

/-- The parameters of the method. -/
def methodParam (s : Setter) (channel : Channel) : String :=
  let param := s.valueParam
  match if s.addsSourceLocation then s.sourceLocation? else none with
  | none => param
  | some location =>
    param ++ (if param.isEmpty then "" else ", ") ++ s.sourceLocationDeclaration channel location

/-- The name of a map's parameter. -/
def mapParamName (s : Setter) : String :=
  if s.traits.foreach then "key_value_pairs" else "key_value_pair"

/-- The value before its conversion. -/
def unconverted (s : Setter) : String :=
  if !s.fixedValue.isEmpty then s.fixedValue
  else if s.insertsIntoMap
      && (!s.traits.foreach || (textOf s.options.conversion).isEmpty) then s.mapParamName
  else if s.traits.foreach then "v" else "value"

/-- The expression that is stored. -/
def setValue (s : Setter) : Except Failure String :=
  s.apply (textOf s.options.conversion) s.unconverted

/-- The value that the predicate is asked about. -/
def predicateValue (s : Setter) : String :=
  if !s.fixedValue.isEmpty then s.fixedValue
  else if s.insertsIntoMap then s.mapParamName
  else "value"

/-- The expression of the predicate. -/
def predicate (s : Setter) : Except Failure String :=
  s.apply (textOf s.options.predicate) s.predicateValue

/-- A description for the log. -/
def describe (s : Setter) : String :=
  Text.unlines [
    "Field: " ++ s.field.fullName,
    "Options: " ++ s.raw.render,
    "class_name: " ++ s.context.className,
    "data_parent: " ++ s.context.dataParent,
    "name_parent: " ++ s.context.nameParent]

end Setter

end FluentGen
