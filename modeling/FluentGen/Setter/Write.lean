import FluentGen.Schema.Header
import FluentGen.Setter.Basic

/-!
Writing the methods of a field: declarations, definitions, the guard of a predicate, the overload
for other builders, and an error block where the options make no sense together.
-/

namespace FluentGen

namespace Setter

/-- Writes the template head of a method, if it is a template. A list of map items is none, since
braces do not tell the type of the items. -/
def writeTemplateLine (s : Setter) (channel : Channel) : Emit Unit :=
  if s.traits.initializerList then
    if s.isMap then pure () else .line channel "template <class Item>"
  else if s.traits.template then
    let type := s.parameterType false
    if s.traits.foreach then
      .line channel ("template <class " ++ type
        ++ ", class = typename std::enable_if<!std::is_convertible<" ++ type ++ ", "
        ++ s.relativeFieldType ++ ">::value>::type>")
    else .line channel ("template <class " ++ type ++ ">")
  else pure ()

/-- Writes the overload that takes another builder and moves its data in. Conversions and
predicates are left to the method that it calls. -/
def writeSetFromBuilder (s : Setter) : Emit Unit :=
  if !s.setsFromBuilder then pure ()
  else
    let pool := s.context.pool
    let moved := "*std::move(value)"
    let (type, params, args) :=
      if s.isMap then
        let keyIsText := (pool.mapKey? s.field).any (·.kind == .string)
        let typeOf (f : Option Schema.Field) : String := (f.map pool.cppType).getD ""
        let keyType := typeOf (pool.mapKey? s.field)
        (typeOf (pool.mapValue? s.field),
          Name.parameter keyIsText keyType ++ " key, Builder builder",
          "\x7bkey, " ++ moved ++ "\x7d")
      else (s.rawType, "Builder builder", moved)
    .lines .header [
      "",
      "template <",
      "    class Builder,",
      "    class = std::enable_if_t<std::is_same_v<",
      "        std::invoke_result_t<",
      "            decltype(&Builder::MaybeGetRawData), Builder>,",
      "        absl::StatusOr<" ++ type ++ ">>>>",
      s.context.className ++ "& " ++ s.methodName ++ "(" ++ params ++ ") \x7b",
      "  auto value = std::move(builder).MaybeGetRawData();",
      "  if (value.ok()) \x7b",
      "    " ++ s.methodName ++ "(" ++ args ++ ");",
      "  \x7d else \x7b",
      "    UpdateStatus(value.status());",
      "  \x7d",
      "  return *this;",
      "\x7d",
      ""]

/-- Writes the declaration of the method. In an interface it is abstract, and what implements an
interface overrides it. -/
def writeDeclaration (s : Setter) (channel : Channel) : Emit Unit := do
  s.writeTemplateLine channel
  let interface := s.context.makeInterface
  let abstract := channel = .interface && interface
  let override := (channel ≠ .interface && interface) || s.raw.override.getD false
  let suffix := if override then " override" else if abstract then " =0" else ""
  .line channel ((if abstract then "virtual " else "") ++ s.context.className ++ "& "
    ++ s.methodName ++ "(" ++ s.methodParam .header ++ ")" ++ suffix ++ ";")
  if interface then pure () else s.writeSetFromBuilder

/-- The statement that stores one element of a repeated field. -/
def addStatement (s : Setter) (value : String) : String :=
  let add := s.context.dataParent ++ "add_" ++ Name.accessor s.field.name
  if s.field.isMessage then "*" ++ add ++ "() = " ++ value ++ ";"
  else add ++ "(" ++ value ++ ");"

/-- The loop statement that hands one element to the method for single values. -/
def itemStatement (s : Setter) (value : String) : String :=
  let location := if s.addsSourceLocation then ", " ++ s.sourceLocationParam else ""
  if s.isMap && (textOf s.options.conversion).isEmpty then
    "    Insert" ++ s.camelName ++ "(" ++ s.fieldType ++ "(" ++ value ++ ".first, " ++ value
      ++ ".second)" ++ location ++ ");"
  else
    "    " ++ (if s.isMap then "Insert" else "Add") ++ s.camelName ++ "(" ++ value ++ location
      ++ ");"

/-- Writes the statements that store the value. -/
def writeBody (s : Setter) (channel : Channel) : Emit Unit := do
  let name := Name.accessor s.field.name
  let insert := "  " ++ s.context.dataParent ++ "mutable_" ++ name ++ "()->insert("
  if s.insertsIntoMap && !s.traits.foreach then
    let value ← .lift s.setValue
    .line channel (insert ++ value ++ ");")
  else if s.insertsIntoMap && (textOf s.options.conversion).isEmpty then
    let value ← .lift s.setValue
    .line channel (insert ++ value ++ ".begin(), " ++ value ++ ".end());")
  else if s.field.isRepeated then
    let value ← .lift s.setValue
    if s.traits.foreach || s.isMap then
      let values := if s.isMap then "key_value_pairs" else "values"
      .line channel ("  for (const auto& v : " ++ values ++ ") \x7b")
      .line channel <|
        if s.traits.foreachAdd then s.itemStatement value else "    " ++ s.addStatement value
      .line channel "  \x7d"
    else .line channel ("  " ++ s.addStatement value)
  else if s.field.isMessage then
    let value ← .lift s.setValue
    .line channel ("  *" ++ s.context.dataParent ++ "mutable_" ++ name ++ "() = " ++ value ++ ";")
  else
    let value ← .lift s.setValue
    .line channel ("  " ++ s.context.dataParent ++ "set_" ++ name ++ "(" ++ value ++ ");")

/-- Writes the guard in front of the body, if the annotation brings a predicate. With a status, a
failed predicate is recorded unless something has failed before; without one the value is
dropped. -/
def writePredicate (s : Setter) (channel : Channel) : Emit Unit := do
  if (textOf s.raw.predicate).isEmpty then pure ()
  else
    let predicate ← .lift s.predicate
    if s.context.useStatus then
      .lines channel [
        "const auto status = " ++ predicate ++ ";",
        "if (!status.ok()) \x7b",
        "  if (status_.ok()) \x7b",
        "    UpdateStatus(status);",
        "  \x7d"]
    else .line channel ("if (!" ++ predicate ++ ".ok()) \x7b")
    .lines channel ["  return *this;", "\x7d"]

/-- Writes the definition of the method. -/
def writeImplementation (s : Setter) (channel : Channel) : Emit Unit := do
  let name :=
    if channel = .header then s.methodName else s.context.className ++ "::" ++ s.methodName
  let override := channel = .header && s.raw.override.getD false
  .line channel ""
  s.writeTemplateLine channel
  .line channel (s.context.className ++ "& " ++ name ++ "(" ++ s.methodParam channel ++ ")"
    ++ (if override then " override" else "") ++ " \x7b")
  s.writePredicate channel
  s.writeBody channel
  .lines channel ["  return *this;", "\x7d", ""]

/-- Writes a line of an error block to all channels that the methods would go to, and logs it. -/
def writeErrorLine (s : Setter) (line : String) : Emit Unit := do
  if line.isEmpty then pure () else .log Log.error line
  let line := if line.isEmpty then line else "#error " ++ line
  if s.traits.header then .line .header line
  if s.traits.source then .line .source line
  if s.context.makeInterface then .line .interface line

/-- Writes an error block in the place of the methods. -/
def writeError (s : Setter) (error : String) : Emit Unit :=
  .each ["", error, "Field: " ++ s.field.fullName,
      "FieldBuilderOptions: <" ++ s.options.render ++ ">", ""]
    s.writeErrorLine

/-- What makes the options useless for the field, if anything. -/
def conflict? (s : Setter) : Option String :=
  let output := "'output: " ++ s.options.mode.name ++ "'"
  if s.traits.foreach && !s.field.isRepeated then
    some ("Cannot use " ++ output ++ " with a non repeated field.")
  else if s.traits.template && s.options.value.isSome then
    some ("Cannot use " ++ output ++ " and specify a value.")
  else none

/-- Whether the options make sense for the field; if not, an error block is written. -/
def isValidOrWriteError (s : Setter) : Emit Bool :=
  match s.conflict? with
  | some error => do
    s.writeError error
    return false
  | none => return true

/-- Asks for the includes of options. -/
def needsOf (o : FieldOptions) : Emit Unit := do
  .needsAll .header o.includes
  .needsAll .source o.sourceIncludes

/-- Asks for the includes that the methods need. -/
def addIncludes (s : Setter) : Emit Unit := do
  match s.field.target.file? with
  | some file => .needs .header (Schema.generatedHeader file)
  | none =>
    let isText := s.field.kind = .string || s.field.kind = .bytes
    if isText && s.context.pool.optionsKey s.raw s.field == "std::string" then
      .needs .header "<string>"
  needsOf s.options
  match if s.addsSourceLocation then s.sourceLocation? else none with
  | some location => needsOf location
  | none => pure ()

/-- Writes the methods. -/
def write (s : Setter) : Emit Unit := do
  if s.options.mode = .skip then pure ()
  else if ← s.isValidOrWriteError then
    s.addIncludes
    if s.traits.header then
      if s.traits.template || s.traits.foreach then s.writeImplementation .header
      else s.writeDeclaration .header
    if s.traits.source then s.writeImplementation .source
    if s.context.makeInterface then s.writeDeclaration .interface

end Setter

end FluentGen
