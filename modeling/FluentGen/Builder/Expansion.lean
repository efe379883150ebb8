import FluentGen.Builder.Basic
import FluentGen.Emit.Writer

/-!
Writing the methods of a message. The fields of messages in it are expanded too, along every path
on which no message occurs twice; the depth of a path is limited.

No message is on a path twice, so the number of messages bounds the length of a path.
-/

namespace FluentGen.Builder

open Schema (Field Message)

/-- Writes the methods of a field for one set of options. -/
def writeMethod (b : Builder) (field : Field) (options : FieldOptions)
    (dataParent nameParent : String) (firstMethod : Bool) : Emit Unit := do
  let s ← .lift (Setter.ofOptions (b.context dataParent nameParent firstMethod) field options)
  s.write

/-- Whether options let the messages in a field be expanded: they say so, or their type does. -/
def allowsExpansion (b : Builder) (field : Field) (options : FieldOptions) :
    Except Failure Bool :=
  match options.recurse with
  | some recurse => .ok recurse
  | none => do
    let info ← b.typeMap.typeInfo (b.pool.optionsKey options field)
    return ((info.bind (·.recurse)).getD true)

/-- Writes the methods of the annotations from a position on, and says whether all of them let the
field be expanded. An annotation whose methods are skipped has no say. -/
def writeAnnotated (b : Builder) (field : Field) (dataParent nameParent : String) :
    (index : Nat) → (expand : Bool) → List FieldOptions → Emit Bool
  | _, expand, [] => pure expand
  | index, expand, given :: rest => do
    let options := b.typeMap.resolveMacro given
    if options.mode = .skip then
      b.writeAnnotated field dataParent nameParent (index + 1) expand rest
    else
      let allowed ← .lift (b.allowsExpansion field options)
      b.writeMethod field options dataParent nameParent (index = 0)
      b.writeAnnotated field dataParent nameParent (index + 1) (expand && allowed) rest

/-- Writes the methods of a field that has no annotation: the plain ones, and those of its
automatic type. -/
def writePlain (b : Builder) (field : Field) (dataParent nameParent : String) : Emit Unit := do
  b.writeMethod field {} dataParent nameParent true
  match b.typeMap.automaticType? (b.pool.cppType field) with
  | some automatic => b.writeMethod field automatic dataParent nameParent false
  | none => pure ()

/-- Whether fields may be expanded at all. -/
def expandsFields (b : Builder) : Bool :=
  b.setup.maxFieldDepth.all (1 < ·)

/-- Writes all methods of a field and says whether it shall be expanded. -/
def writeField (b : Builder) (field : Field) (dataParent nameParent : String) : Emit Bool := do
  if field.annotations.isEmpty then
    b.writePlain field dataParent nameParent
    return b.expandsFields
  else
    b.writeAnnotated field dataParent nameParent 0 b.expandsFields field.annotations

/-- Asks for the includes that the options of the message name. -/
def needsOfOptions (b : Builder) : Emit Unit := do
  .needsAll .header b.options.includes
  .needsAll .header b.options.builderIncludes
  .needsAll .source b.options.sourceIncludes

/-- Asks for the header of a message. -/
def needsMessage (message : Message) : Emit Unit :=
  .needs .header (Schema.generatedHeader message.address.file)

/-- Asks for the header of the messages that a map field holds. -/
def needsMapValue (b : Builder) (field : Field) : Emit Unit :=
  match b.pool.mapValueMessage? field with
  | none => pure ()
  | some value => needsMessage value

/-- A field that is written, with what stands in front of its accessors and method names. -/
structure Visit where
  dataParent : String
  nameParent : String
  field : Field
  deriving DecidableEq, Repr

/-- A message whose fields are written, with what stands in front of their accessors and method
names. -/
structure Place where
  message : Message
  dataParent : String
  nameParent : String
  deriving DecidableEq, Repr

namespace Place

/-- The visit of a field of the message. -/
def visit (place : Place) (field : Field) : Visit :=
  ⟨place.dataParent, place.nameParent, field⟩

/-- The place of the message that a field of this one holds. -/
def into (place : Place) (field : Field) (inner : Message) : Place :=
  let given := textOf field.firstOptions.name
  { message := inner
    dataParent := place.dataParent ++ "mutable_" ++ Name.accessor field.name ++ "()->"
    nameParent := place.nameParent ++ if given.isEmpty then Name.camelCase field.name else given }

end Place

/-- Writes all methods of the field that is visited and says whether it shall be expanded. -/
def writeVisit (b : Builder) (visit : Visit) : Emit Bool :=
  b.writeField visit.field visit.dataParent visit.nameParent

/-- The place of the builder's own message. -/
def root (b : Builder) : Place :=
  ⟨b.message, b.options.data, textOf b.options.rootName⟩

/-!
The walk over the messages. It leaves open what a visit does, as long as it says whether the field
shall be expanded.
-/

section Walk

variable {m : Type → Type} [Monad m] [MonadLiftT Emit m]

/-- Goes on into the message that a field holds, if it holds a single one and shall be expanded. -/
def walkInto (b : Builder) (enter : Place → m Unit) (place : Place) (field : Field)
    (expand : Bool) : m Unit :=
  match if expand && field.isSingleMessage then b.pool.targetMessage? field else none with
  | none => pure ()
  | some inner => do
    needsMessage inner
    enter (place.into field inner)

/-- Visits a field, unless its first annotation skips it, and goes on into the message it holds. -/
def walkField (b : Builder) (visit : Visit → m Bool) (enter : Place → m Unit) (place : Place)
    (field : Field) : m Unit :=
  if field.firstOptions.mode = .skip then pure ()
  else do
    let expand ← visit (place.visit field)
    b.walkInto enter place field expand
    b.needsMapValue field

/-- Goes through fields of the message of a place, one after the other. -/
def walkFields (b : Builder) (visit : Visit → m Bool) (enter : Place → m Unit) (place : Place) :
    List Field → m Unit
  | [] => pure ()
  | field :: rest => do
    b.walkField visit enter place field
    b.walkFields visit enter place rest

/-- Goes through the fields of a message and of those in it. `path` holds the messages that are
being expanded; the fuel is the number of messages that may still be added to it, and one more. -/
def walkMessage (b : Builder) (visit : Visit → m Bool) :
    (fuel : Nat) → (path : List Schema.Address) → Place → m Unit
  | 0, _, _ => pure ()
  | fuel + 1, path, place => do
    let message := place.message
    let depth := path.length
    let label := "Message: " ++ message.fullName ++ "[" ++ Number.integerText depth ++ "]"
    if b.setup.maxDepth < depth then
      Emit.log Log.error (label ++ " Max sub-field setter depth reached.")
    else if path.contains message.address then
      Emit.log Log.info (label ++ " Already used in sub-field setter stack.")
    else
      b.needsOfOptions
      b.walkFields visit (b.walkMessage visit fuel (message.address :: path)) place message.fields

/-- Goes through the fields of the builder's message. All channels end with an empty line. -/
def walk (b : Builder) (visit : Visit → m Bool) : m Unit := do
  needsMessage b.message
  b.walkMessage visit (b.pool.messages.length + 2) [] b.root
  Emit.each Channel.all fun c => .line c ""

end Walk

/-- Writes the methods of the builder. -/
def write (b : Builder) : Emit Unit :=
  b.walk b.writeVisit

/-- What the lines of a builder pass through: declarations are indented, and no two empty lines
follow each other. -/
def layers : List Layer :=
  [Layer.singleEmptyLines, Layer.indenting "  " ""]

/-- A buffer with what a builder has produced. -/
def collect (buffer : Buffer) (out : List Emission) : Buffer :=
  ((⟨layers, buffer⟩ : Stack).take out).buffer

end FluentGen.Builder
