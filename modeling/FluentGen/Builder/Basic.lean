import FluentGen.Setter.Write

/-!
The builder of a message: which message it is for, how it is set up, and the options in force.
-/

namespace FluentGen

open Schema (Field Message Pool)

namespace Builder

/-- How deep messages in messages are expanded unless something else is asked for. -/
def defaultDepth : Int := 5

/-- How builders are made. -/
structure Setup where
  /-- How deep fields are expanded; 1 stands for the fields of the message itself. -/
  maxFieldDepth : Option Nat := none
  useValidator : Bool := false
  makeInterface : Bool := false
  maxDepth : Int := defaultDepth
  deriving DecidableEq, Repr

end Builder

/-- The builder of a message. -/
structure Builder where
  typeMap : TypeMap
  pool : Pool
  package : List String
  message : Message
  setup : Builder.Setup
  /-- The options of the message, in which the use of the validator is always decided. -/
  options : MessageOptions
  className : String

namespace MessageOptions

/-- Whether the class has a method that ends the building. -/
def buildsValue (o : MessageOptions) : Bool :=
  o.useBuild.getD false || o.useValidator.getD false

/-- Whether the class converts into the message. -/
def converts (o : MessageOptions) : Bool :=
  o.useConversion.getD false

/-- Whether the class keeps a status. -/
def keepsStatus (o : MessageOptions) : Bool :=
  o.useStatus.getD false || o.useBuild.getD false || o.useValidator.getD false

/-- Whether the class validates its data. -/
def validates (o : MessageOptions) : Bool :=
  o.useValidator.getD false

/-- The options with the use of the validator decided. -/
def decideValidator (o : MessageOptions) (useValidator : Bool) : MessageOptions :=
  { o with useValidator := some (o.useValidator.getD useValidator) }

end MessageOptions

namespace Builder

/-- The builder of a message. Its class is named after the message unless the message names it. -/
def ofMessage (typeMap : TypeMap) (pool : Pool) (package : List String) (message : Message)
    (setup : Setup := {}) : Builder :=
  let options := (message.options.getD {}).decideValidator setup.useValidator
  let given := textOf options.className
  { typeMap, pool, package, message, setup, options
    className := if given.isEmpty then message.className ++ "Builder" else given }

/-- Whether the class gives its data away together with a status. -/
def useGetRawData (b : Builder) : Bool :=
  b.options.keepsStatus

/-- The surroundings of a field's methods. -/
def context (b : Builder) (dataParent nameParent : String) (firstMethod : Bool) :
    SetterContext :=
  { typeMap := b.typeMap
    pool := b.pool
    package := b.package
    className := b.className
    dataParent
    nameParent
    useGetRawData := b.useGetRawData
    makeInterface := b.setup.makeInterface
    firstMethod
    useStatus := b.options.useStatus.getD false }

end Builder

end FluentGen
