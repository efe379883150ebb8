/-!
The kinds of fields in a schema, and the C++ kinds that hold their values.
-/

namespace FluentGen.Schema

/-- The declared type of a field. -/
inductive FieldKind where
  | double
  | float
  | int64
  | uint64
  | int32
  | fixed64
  | fixed32
  | bool
  | string
  | group
  | message
  | bytes
  | uint32
  | enum
  | sfixed32
  | sfixed64
  | sint32
  | sint64
  deriving DecidableEq, Repr, Inhabited

/-- How many values a field has. -/
inductive Label where
  | optional
  | required
  | repeated
  deriving DecidableEq, Repr, Inhabited

/-- The kind of a field's values in C++. -/
inductive CppKind where
  | int32
  | int64
  | uint32
  | uint64
  | double
  | float
  | bool
  | enum
  | string
  | message
  deriving DecidableEq, Repr

namespace FieldKind

/-- All kinds, in the order of their numbers, which begin at one. -/
def all : List FieldKind :=
  [double, float, int64, uint64, int32, fixed64, fixed32, bool, string, group, message, bytes,
    uint32, enum, sfixed32, sfixed64, sint32, sint64]

/-- The number of a kind. -/
def number (kind : FieldKind) : Nat :=
  all.idxOf kind + 1

/-- The kind with a number. -/
def ofNumber? (n : Nat) : Option FieldKind :=
  if n = 0 then none else all[n - 1]?

/-- The name of a kind in a schema. -/
def name : FieldKind → String
  | double => "double"
  | float => "float"
  | int64 => "int64"
  | uint64 => "uint64"
  | int32 => "int32"
  | fixed64 => "fixed64"
  | fixed32 => "fixed32"
  | bool => "bool"
  | string => "string"
  | group => "group"
  | message => "message"
  | bytes => "bytes"
  | uint32 => "uint32"
  | enum => "enum"
  | sfixed32 => "sfixed32"
  | sfixed64 => "sfixed64"
  | sint32 => "sint32"
  | sint64 => "sint64"

/-- The kind with a name. -/
def ofName? (text : String) : Option FieldKind :=
  all.find? (·.name == text)

/-- The kind of the values in C++. -/
def cpp : FieldKind → CppKind
  | double => .double
  | float => .float
  | int64 | sint64 | sfixed64 => .int64
  | uint64 | fixed64 => .uint64
  | int32 | sint32 | sfixed32 => .int32
  | uint32 | fixed32 => .uint32
  | bool => .bool
  | string | bytes => .string
  | group | message => .message
  | enum => .enum

end FieldKind

namespace Label

/-- All labels, in the order of their numbers, which begin at one. -/
def all : List Label := [optional, required, repeated]

/-- The number of a label. -/
def number (label : Label) : Nat :=
  all.idxOf label + 1

/-- The label with a number. -/
def ofNumber? (n : Nat) : Option Label :=
  if n = 0 then none else all[n - 1]?

/-- The name of a label in a schema. -/
def name : Label → String
  | optional => "optional"
  | required => "required"
  | repeated => "repeated"

/-- The label with a name. -/
def ofName? (text : String) : Option Label :=
  all.find? (·.name == text)

end Label

namespace CppKind

/-- All kinds, in the order of their numbers, which begin at one. -/
def all : List CppKind :=
  [int32, int64, uint32, uint64, double, float, bool, enum, string, message]

/-- The number of a kind. -/
def number (kind : CppKind) : Nat :=
  all.idxOf kind + 1

/-- The name of a kind. -/
def name : CppKind → String
  | int32 => "int32"
  | int64 => "int64"
  | uint32 => "uint32"
  | uint64 => "uint64"
  | double => "double"
  | float => "float"
  | bool => "bool"
  | enum => "enum"
  | string => "string"
  | message => "message"

/-- Whether the values are integers. -/
def isInteger : CppKind → Bool
  | int32 | int64 | uint32 | uint64 => true
  | _ => false

end CppKind

end FluentGen.Schema
