/-!
Settings as they are given, before anything is known about them.
-/

namespace FluentGen.Settings

/-- A value of a setting. Of a number with a fraction only its kind matters, since no setting takes
one. -/
inductive Value where
  | absent
  | bool (b : Bool)
  | int (n : Int)
  | real
  | text (s : String)
  | list (items : List Value)
  | object (entries : List (String × Value))
  deriving Repr, Inhabited

/-- The kinds of values. -/
inductive Kind where
  | absent
  | bool
  | int
  | real
  | text
  | list
  | object
  deriving DecidableEq, Repr

namespace Kind

/-- The name of a kind in messages. -/
def name : Kind → String
  | absent => "NoneType"
  | bool => "bool"
  | int => "int"
  | real => "float"
  | text => "str"
  | list => "list"
  | object => "dict"

end Kind

/-- The kind of a value. -/
def Value.kind : Value → Kind
  | absent => .absent
  | bool _ => .bool
  | int _ => .int
  | real => .real
  | text _ => .text
  | list _ => .list
  | object _ => .object

end FluentGen.Settings
