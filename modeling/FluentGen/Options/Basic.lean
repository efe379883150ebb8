import FluentGen.KeyMap

/-!
What a schema says about the builders it wants: the options of a field and of a message. An option
that is set is told from one that is not, even if it is set to an empty text or to `false`.

Options are combined by `merge`: a set scalar replaces the one below it, lists are appended, and
the entries of a map replace those of the same key.
-/

namespace FluentGen

/-- How the methods of a field are written: not at all, as declaration, definition or both, or as
one of the templates that are defined where they are declared. -/
inductive OutputMode where
  | skip
  | header
  | source
  | both
  | template
  | foreach
  | foreachAdd
  | initializerList
  deriving DecidableEq, Repr, Inhabited

namespace OutputMode

/-- All modes, each at its number. -/
def all : List OutputMode :=
  [skip, header, source, both, template, foreach, foreachAdd, initializerList]

/-- The name of a mode in a schema. -/
def name : OutputMode → String
  | skip => "SKIP"
  | header => "HEADER"
  | source => "SOURCE"
  | both => "BOTH"
  | template => "TEMPLATE"
  | foreach => "FOREACH"
  | foreachAdd => "FOREACH_ADD"
  | initializerList => "INITIALIZER_LIST"

/-- The mode with a name. -/
def ofName? (name : String) : Option OutputMode :=
  all.find? (·.name == name)

/-- The mode with a number. -/
def ofNumber? (n : Nat) : Option OutputMode :=
  all[n]?

end OutputMode

/-- The options of a field, or of a type in a type map. -/
structure FieldOptions where
  /-- The parameter type, or the type map key that provides it. -/
  type : Option String := none
  /-- The parameter type that is written instead of a constant reference. -/
  decoratedType : Option String := none
  /-- The end of the method name. -/
  name : Option String := none
  /-- A fixed value; the method then takes no value. -/
  value : Option String := none
  /-- The expression that is applied to the value. -/
  conversion : Option String := none
  /-- The status expression that must be ok before the value is stored. -/
  predicate : Option String := none
  includes : List String := []
  sourceIncludes : List String := []
  output : Option OutputMode := none
  /-- Replacements for the tokens of the conversion and the predicate. -/
  data : KeyMap String := {}
  addSourceLocation : Option Bool := none
  override : Option Bool := none
  recurse : Option Bool := none
  automatic : Option Bool := none
  /-- The type map key whose options lie below these. -/
  macroKey : Option String := none
  /-- The parameter name in expansions. -/
  param : Option String := none
  dependencies : List String := []
  deriving DecidableEq, Repr, Inhabited

namespace FieldOptions

/-- The mode that is in force: without a setting, declarations and definitions. -/
def mode (o : FieldOptions) : OutputMode :=
  o.output.getD .both

/-- These options laid over others. -/
def merge (below above : FieldOptions) : FieldOptions where
  type := above.type <|> below.type
  decoratedType := above.decoratedType <|> below.decoratedType
  name := above.name <|> below.name
  value := above.value <|> below.value
  conversion := above.conversion <|> below.conversion
  predicate := above.predicate <|> below.predicate
  includes := below.includes ++ above.includes
  sourceIncludes := below.sourceIncludes ++ above.sourceIncludes
  output := above.output <|> below.output
  data := below.data.union above.data
  addSourceLocation := above.addSourceLocation <|> below.addSourceLocation
  override := above.override <|> below.override
  recurse := above.recurse <|> below.recurse
  automatic := above.automatic <|> below.automatic
  macroKey := above.macroKey <|> below.macroKey
  param := above.param <|> below.param
  dependencies := below.dependencies ++ above.dependencies

end FieldOptions

/-- The text of a setting; an option that is not set reads as empty. -/
def textOf (setting : Option String) : String :=
  setting.getD ""

/-- The options of every type that has some: the key is a C++ type, a schema type, or a name that
begins with a sigil. -/
abbrev TypeMap := KeyMap FieldOptions

/-- The options of a message. -/
structure MessageOptions where
  className : Option String := none
  /-- The expression in front of the accessors. -/
  rootData : Option String := none
  /-- What the method names of the message begin with. -/
  rootName : Option String := none
  useBuild : Option Bool := none
  useStatus : Option Bool := none
  useValidator : Option Bool := none
  useConversion : Option Bool := none
  includes : List String := []
  builderIncludes : List String := []
  sourceIncludes : List String := []
  baseClasses : List String := []
  typeMap : TypeMap := {}
  deriving DecidableEq, Repr, Inhabited

namespace MessageOptions

/-- The expression in front of the accessors, which is the data member unless it is set. -/
def data (o : MessageOptions) : String :=
  o.rootData.getD "data_."

/-- These options laid over others. -/
def merge (below above : MessageOptions) : MessageOptions where
  className := above.className <|> below.className
  rootData := above.rootData <|> below.rootData
  rootName := above.rootName <|> below.rootName
  useBuild := above.useBuild <|> below.useBuild
  useStatus := above.useStatus <|> below.useStatus
  useValidator := above.useValidator <|> below.useValidator
  useConversion := above.useConversion <|> below.useConversion
  includes := below.includes ++ above.includes
  builderIncludes := below.builderIncludes ++ above.builderIncludes
  sourceIncludes := below.sourceIncludes ++ above.sourceIncludes
  baseClasses := below.baseClasses ++ above.baseClasses
  typeMap := below.typeMap.union above.typeMap

end MessageOptions

end FluentGen
