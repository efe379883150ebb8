import FluentGen.Schema.Pool

/-!
The headers that belong to schema files.
-/

namespace FluentGen.Schema

/-- The remark behind an include that is passed on to those who include the file. -/
def exportRemark : String := "  // IWYU pragma: export"

/-- The include operand of the header that is generated for a schema file. What includes it passes
it on. -/
def generatedHeader (file : String) : String :=
  let base := if file.toList.contains '.' then (Text.cutLast '.' file).1 else file
  "\"" ++ base ++ ".pb.h\"" ++ exportRemark

/-- The include of the header that declares something, or a name that stands out if its file is
not known. -/
def headerOf (fullName : String) : (file : Option String) → String
  | some file => generatedHeader file
  | none => "ERROR_HEADER_UNKNOWN_FOR_" ++ fullName

/-- The file whose header declares the message or enum that a field refers to. -/
def Target.file? : Target → Option String
  | .scalar => none
  | .message address => some address.file
  | .enum e => some e.file

end FluentGen.Schema
