import FluentGen.Text.Basic

/-!
Include guards, include lines and build labels.
-/

namespace FluentGen.Name

/-- A character of a guard: ASCII letters in upper case, digits, and an underscore for the rest. -/
def guardChar (c : Char) : Char :=
  if c.isAlphanum then c.toUpper else '_'

/-- The guard of a header: `foo_bar/baz.h` is guarded by `FOO_BAR_BAZ_H_`. -/
def headerGuard (path : String) : String :=
  String.ofList (path.toList.map guardChar ++ ['_'])

/-- The guard of the interface that belongs to a header. -/
def interfaceGuard (path : String) : String :=
  let guard := headerGuard path
  (Text.stripEnd? "_H_" guard).getD guard ++ "_INTERFACE_H_"

/-- The operand of an include line: a name in quotes or brackets stays as it is, any other is put
into quotes. -/
def includeOperand (name : String) : String :=
  match name.toList with
  | '<' :: _ => name
  | '"' :: _ => name
  | _ => "\"" ++ name ++ "\""

/-- The full form of a build label: `//a/b` names the target `b` of its package. -/
def fullLabel (label : String) : String :=
  if label.toList.contains ':' then label
  else label ++ ":" ++ (Text.cutLast '/' label).2

end FluentGen.Name
