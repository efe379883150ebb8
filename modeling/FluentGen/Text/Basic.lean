/-!
Cutting, joining and searching text. Each operation is a recursion on the characters, and a
`String` version stands beside it.
-/

namespace FluentGen.Text

/-- The pieces between the separators. There is one piece more than there are separators, so the
pieces joined by the separator give the text back. -/
def splitChars (sep : Char) : List Char → List (List Char)
  | [] => [[]]
  | c :: rest =>
    if c = sep then [] :: splitChars sep rest
    else
      match splitChars sep rest with
      | [] => [[c]]
      | piece :: pieces => (c :: piece) :: pieces

/-- The pieces of a text between the separators. -/
def split (sep : Char) (text : String) : List String :=
  (splitChars sep text.toList).map String.ofList

/-- The lines of a text; a text that ends with a line break ends with an empty line. -/
def lines (text : String) : List String :=
  split '\n' text

/-- The text whose lines are the given ones. -/
def unlines (parts : List String) : String :=
  "\n".intercalate parts

/-- What follows `start` in a text that begins with it. -/
def afterStart? : List Char → List Char → Option (List Char)
  | [], text => some text
  | _ :: _, [] => none
  | s :: start, c :: text => if s = c then afterStart? start text else none

/-- Whether `start` begins the text. -/
def startsWith (start text : String) : Bool :=
  start.toList.isPrefixOf text.toList

/-- Whether `ending` ends the text. -/
def endsWith (ending text : String) : Bool :=
  ending.toList.isSuffixOf text.toList

/-- The text without `start`, if it begins with it. -/
def stripStart? (start text : String) : Option String :=
  (afterStart? start.toList text.toList).map String.ofList

/-- The text without `ending`, if it ends with it. -/
def stripEnd? (ending text : String) : Option String :=
  (afterStart? ending.toList.reverse text.toList.reverse).map
    fun rest => String.ofList rest.reverse

/-- Whether `part` occurs anywhere in the text. -/
def containsChars (part : List Char) : List Char → Bool
  | [] => part.isEmpty
  | c :: rest => part.isPrefixOf (c :: rest) || containsChars part rest

/-- Whether `part` occurs anywhere in the text. -/
def contains (part text : String) : Bool :=
  containsChars part.toList text.toList

/-- What stands before the first separator, and what stands after it. Without a separator the
whole text stands before it. -/
def cutChars (sep : Char) : List Char → List Char × Option (List Char)
  | [] => ([], none)
  | c :: rest =>
    if c = sep then ([], some rest)
    else
      let (before, after) := cutChars sep rest
      (c :: before, after)

/-- What stands before the first separator, and what stands after it. -/
def cut (sep : Char) (text : String) : String × Option String :=
  let (before, after) := cutChars sep text.toList
  (String.ofList before, after.map String.ofList)

/-- The text without its first character. -/
def tail (text : String) : String :=
  String.ofList text.toList.tail

/-- The part of a text after the last separator, and the part before that separator; without one
the part before is empty. -/
def cutLast (sep : Char) (text : String) : String × String :=
  match (cutChars sep text.toList.reverse) with
  | (last, some before) => (String.ofList before.reverse, String.ofList last.reverse)
  | (last, none) => ("", String.ofList last.reverse)

/-- ASCII letters, digits and the underscore. -/
def isWordChar (c : Char) : Bool :=
  c.isAlphanum || c = '_'

/-- The digit for a value below sixteen, in lower case. -/
def hexDigit (n : Nat) : Char :=
  if n < 10 then Char.ofNat (48 + n) else Char.ofNat (87 + n)

/-- The value of a hexadecimal digit of either case. -/
def hexValue? (c : Char) : Option Nat :=
  if c.isDigit then some (c.toNat - 48)
  else if 'a' ≤ c ∧ c ≤ 'f' then some (c.toNat - 87)
  else if 'A' ≤ c ∧ c ≤ 'F' then some (c.toNat - 55)
  else none

/-- The value of a sequence of hexadecimal digits, most significant first. -/
def hexNumber? (digits : List Char) : Option Nat :=
  digits.foldl (fun acc c => do return 16 * (← acc) + (← hexValue? c)) (some 0)

/-- The last `width` hexadecimal digits of a number, most significant first. -/
def hexDigits : (width : Nat) → Nat → List Char
  | 0, _ => []
  | width + 1, n => hexDigits width (n / 16) ++ [hexDigit (n % 16)]

end FluentGen.Text
