import FluentGen.Failure
import FluentGen.Schema.Kind

/-!
Schema files as they are written, before any name is looked up.
-/

namespace FluentGen.Schema

/-- A declared enum. -/
structure EnumDecl where
  name : String := ""
  values : List String := []
  deriving DecidableEq, Repr, Inhabited

/-- A declared field; its options are there, or cannot be read. -/
structure FieldDecl where
  name : String := ""
  number : Int := 0
  kind : FieldKind := .double
  label : Label := .optional
  typeName : String := ""
  default : Option String := none
  annotations : Except Failure (List FieldOptions) := .ok []

/-- A declared message; its options are there, or cannot be read. -/
structure MessageDecl where
  name : String := ""
  fields : List FieldDecl := []
  nested : List MessageDecl := []
  enums : List EnumDecl := []
  isMapEntry : Bool := false
  options : Except Failure (Option MessageOptions) := .ok none

instance : Inhabited MessageDecl := ⟨{}⟩

/-- A schema file. -/
structure FileDecl where
  name : String := ""
  package : String := ""
  dependencies : List String := []
  messages : List MessageDecl := []
  enums : List EnumDecl := []

end FluentGen.Schema
