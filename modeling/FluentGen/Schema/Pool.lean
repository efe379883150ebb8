import FluentGen.Log
import FluentGen.Schema.Declaration
import FluentGen.Text.Basic

/-!
A schema with all its names looked up.

A message is identified by its address, that is by the file and the position where it is declared.
Names lead to the message that was declared last under them.
-/

namespace FluentGen.Schema

/-- Where a message is declared: its file, and its position in the file and in the messages around
it, the outermost first. -/
structure Address where
  file : String
  path : List Nat
  deriving DecidableEq, Repr, Inhabited

/-- An enum. -/
structure EnumType where
  name : String
  fullName : String
  file : String
  container : Option Address
  values : List String
  deriving DecidableEq, Repr, Inhabited

/-- The message or enum that a field refers to. -/
inductive Target where
  | scalar
  | message (address : Address)
  | enum (type : EnumType)
  deriving DecidableEq, Repr, Inhabited

/-- A field. -/
structure Field where
  name : String
  fullName : String
  number : Int
  kind : FieldKind
  label : Label
  container : Address
  typeName : String
  target : Target
  default : Option String
  annotations : List FieldOptions
  deriving DecidableEq, Repr, Inhabited

/-- A message. -/
structure Message where
  address : Address
  name : String
  fullName : String
  container : Option Address
  /-- The names of the messages around it, the outermost first. -/
  enclosing : List String
  /-- The full name of the outermost message around it, or its own. -/
  outermost : String
  fields : List Field
  enums : List EnumType
  isMapEntry : Bool
  options : Option MessageOptions
  deriving DecidableEq, Repr, Inhabited

/-- A file of a loaded schema. -/
structure File where
  name : String
  package : String
  dependencies : List String
  enums : List EnumType
  deriving DecidableEq, Repr, Inhabited

/-- A loaded schema. The messages and enums stand in the order in which they are declared, a
message in front of those it contains. -/
structure Pool where
  files : List File := []
  messages : List Message := []
  enums : List EnumType := []
  deriving DecidableEq, Repr, Inhabited

/-- The full name of something declared in a scope. -/
def qualify (scope name : String) : String :=
  if scope.isEmpty then name else scope ++ "." ++ name

/-- The name without the dots in front of it. -/
def withoutLeadingDots (name : String) : String :=
  String.ofList (name.toList.dropWhile (· = '.'))

namespace Field

/-- Whether the field has any number of values. -/
def isRepeated (f : Field) : Bool :=
  f.label == .repeated

/-- Whether the values are messages. -/
def isMessage (f : Field) : Bool :=
  f.kind.cpp == .message

/-- Whether the field has one value, which is a message. -/
def isSingleMessage (f : Field) : Bool :=
  f.isMessage && !f.isRepeated

/-- An annotation by its position; one that is missing sets nothing. -/
def optionsAt (f : Field) (index : Nat) : FieldOptions :=
  f.annotations[index]?.getD {}

/-- The first annotation. -/
def firstOptions (f : Field) : FieldOptions :=
  f.optionsAt 0

end Field

namespace Message

/-- The first field with a name. -/
def field? (m : Message) (name : String) : Option Field :=
  m.fields.find? (·.name == name)

/-- The package, which is what stands before the last dot of the outermost message's name. -/
def package (m : Message) : String :=
  (Text.cutLast '.' m.outermost).1

/-- The name of the class: the names of the nesting, joined by underscores. -/
def className (m : Message) : String :=
  "_".intercalate (m.enclosing ++ [m.name])

end Message

namespace Pool

/-- The file with a name. -/
def file? (pool : Pool) (name : String) : Option File :=
  pool.files.find? (·.name == name)

/-- The message at an address. -/
def message? (pool : Pool) (address : Address) : Option Message :=
  pool.messages.find? (·.address == address)

/-- The message that was declared last under a full name, which may have dots in front. -/
def messageNamed? (pool : Pool) (name : String) : Option Message :=
  pool.messages.reverse.find? (·.fullName == withoutLeadingDots name)

/-- The enum that was declared last under a full name, which may have dots in front. -/
def enumNamed? (pool : Pool) (name : String) : Option EnumType :=
  pool.enums.reverse.find? (·.fullName == withoutLeadingDots name)

/-- The messages of a file that no other message contains. -/
def topLevel (pool : Pool) (file : String) : List Message :=
  pool.messages.filter fun m => m.container.isNone && m.address.file == file

/-- The messages that a message contains directly. -/
def nestedIn (pool : Pool) (address : Address) : List Message :=
  pool.messages.filter fun m => m.container == some address

/-- The message that a field refers to. -/
def targetMessage? (pool : Pool) (f : Field) : Option Message :=
  match f.target with
  | .message address => pool.message? address
  | _ => none

/-- The entry message of a map field. -/
def mapEntry? (pool : Pool) (f : Field) : Option Message :=
  (pool.targetMessage? f).filter (·.isMapEntry)

/-- Whether a field is a map. -/
def isMap (pool : Pool) (f : Field) : Bool :=
  (pool.mapEntry? f).isSome

/-- The key field of a map. -/
def mapKey? (pool : Pool) (f : Field) : Option Field :=
  (pool.mapEntry? f).bind (·.field? "key")

/-- The value field of a map. -/
def mapValue? (pool : Pool) (f : Field) : Option Field :=
  (pool.mapEntry? f).bind (·.field? "value")

/-- The message type of the values of a map. -/
def mapValueMessage? (pool : Pool) (f : Field) : Option Message :=
  (pool.mapValue? f).bind pool.targetMessage?

end Pool

end FluentGen.Schema
