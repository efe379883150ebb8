import FluentGen.Name.TypeName
import FluentGen.Number.Binary
import FluentGen.Schema.Pool
import FluentGen.Text.Escape

/-!
How a field looks in C++: its type and the expression of its default value.
-/

namespace FluentGen.Schema

namespace Pool

/-- The C++ type of one element of a field, of which map entries are opened up to the given
depth. -/
def cppTypeTo (pool : Pool) : (depth : Nat) → Field → String
  | 0, _ => ""
  | depth + 1, f =>
    let element (f : Option Field) : String := (f.map (pool.cppTypeTo depth)).getD ""
    match pool.targetMessage? f with
    | some m =>
      if m.isMapEntry then
        "::google::protobuf::Map<" ++ element (m.field? "key") ++ ", "
          ++ element (m.field? "value") ++ ">::value_type"
      else Name.absolute m.fullName
    | none =>
      match f.target with
      | .enum e => Name.absolute e.fullName
      | _ =>
        if f.kind.cpp = .string then "std::string" else Name.absolute f.kind.cpp.name

/-- The C++ type of one element of a field. A map entry that contains others contains them only a
finite number of times, at most once each. -/
def cppType (pool : Pool) (f : Field) : String :=
  pool.cppTypeTo (pool.messages.length + 1) f

/-- The key under which a field's options are found in a type map. -/
def optionsKey (pool : Pool) (o : FieldOptions) (f : Field) : String :=
  o.type.getD (pool.cppType f)

end Pool

/-- Reads the default of a number with a fraction and writes its double precision value. -/
def realDefault (text : String) : Except Failure String :=
  match Number.Decimal.read? text with
  | some d => .ok (Number.shortText (Number.Binary.ofDecimal d))
  | none => .error (.notANumber text)

/-- Reads the default of an integer and writes it in decimal. -/
def integerDefault (text : String) : Except Failure String :=
  match Number.integer? text with
  | some n => .ok (Number.integerText n)
  | none => .error (.notAnInteger text)

/-- Bytes as a C++ string literal. -/
def stringLiteral (bytes : List UInt8) : String :=
  "\"" ++ Text.escapeToAscii bytes ++ "\""

/-- The C++ expression of a field's default value. A default of bytes is escaped in the schema
already. -/
def Field.defaultExpression (f : Field) : Except Failure String :=
  match f.default with
  | none => .ok "\x7b\x7d"
  | some text =>
    match f.kind with
    | .double | .float => realDefault text
    | .bool => .ok (if text == "true" then "true" else "false")
    | .string => .ok (stringLiteral (Text.utf8 text))
    | .bytes =>
      match Text.unescape text with
      | .ok bytes => .ok (stringLiteral bytes)
      | .error e => .error (.badEscape e)
    | .enum => .ok text
    | kind => if kind.cpp.isInteger then integerDefault text else .ok "\x7b\x7d"

end FluentGen.Schema
