import FluentGen.Settings.Value
import FluentGen.Text.Quoted

/-!
What can be wrong with settings, and how it is told.
-/

namespace FluentGen.Settings

/-- What is wrong with the value of one setting. -/
inductive Complaint where
  | notText (kind : Kind)
  | emptyText
  | badSelection (flag : String)
  | notBool
  | notInt
  | belowZero
  | notAllowed
  deriving DecidableEq, Repr

namespace Complaint

/-- The wording of a complaint. -/
def message : Complaint → String
  | notText kind => "Must be string, got " ++ kind.name ++ "."
  | emptyText => "String value cannot be empty."
  | badSelection flag =>
    "Expected '<messages>:<file>[,<file>...]' (e.g. 'my.Type:path/file.proto'), got '"
      ++ flag ++ "'."
  | notBool => "expected bool"
  | notInt => "expected int"
  | belowZero => "value must be at least 0"
  | notAllowed => "not a valid value"

end Complaint

/-- What is wrong with settings. -/
inductive Problem where
  | notAnObject
  | missing (key : String)
  | unknown (key : String)
  | invalid (key : String) (complaint : Complaint)
  | interfaceMissing
  deriving DecidableEq, Repr

namespace Problem

/-- The place of a setting in messages. -/
def place (key : String) : String :=
  " @ data[" ++ Text.quoted key ++ "]"

/-- The wording of a problem. -/
def message : Problem → String
  | notAnObject => "expected a dictionary"
  | missing key => "required key not provided" ++ place key
  | unknown key => "extra keys not allowed" ++ place key
  | invalid key complaint => complaint.message ++ " for dictionary value" ++ place key
  | interfaceMissing => "'interface' is required with 'make_interface'." ++ place "interface"

end Problem

end FluentGen.Settings
