import FluentGen.Text.Character

/-!
Reading integers. Blanks may surround the number, a sign may precede it, digits of every script
count, and a single underscore may stand between two digits.
-/

namespace FluentGen.Number

/-- The blanks that may surround a number. -/
def isNumberBlank (c : Char) : Bool :=
  (9 ≤ c.toNat && c.toNat ≤ 13) || c = ' ' || Text.isWideBlank c

/-- Drops the blanks at both ends. -/
def trim (text : List Char) : List Char :=
  Text.trimBy isNumberBlank text

/-- Writes the digits of all scripts in ASCII. -/
def plainDigits (text : List Char) : List Char :=
  text.map fun c =>
    match Text.decimalValue? c with
    | some d => Char.ofNat (48 + d)
    | none => c

/-- Drops the underscores between digits; there is no result if an underscore stands anywhere
else. `previous` is the character before the rest of the text. -/
def dropUnderscores (previous : Option Char) : List Char → Option (List Char)
  | [] => if previous = some '_' then none else some []
  | c :: rest =>
    if c = '_' then
      if previous.any Char.isDigit then dropUnderscores (some c) rest else none
    else if previous = some '_' && !c.isDigit then none
    else (dropUnderscores (some c) rest).map (c :: ·)

/-- The number that decimal digits denote. -/
def ofDigits (digits : List Char) : Nat :=
  digits.foldl (fun acc c => 10 * acc + (c.toNat - 48)) 0

/-- The sign in front of a number and what follows it. -/
def splitSign : List Char → Bool × List Char
  | '-' :: rest => (true, rest)
  | '+' :: rest => (false, rest)
  | text => (false, text)

/-- Reads digits as a number; there must be at least one. -/
def natural? (text : List Char) : Option Nat :=
  if text.isEmpty || !text.all Char.isDigit then none else some (ofDigits text)

/-- Reads an integer, of any number of digits. A limit on their number that a reader of texts may set
for its own protection, such as 4300 digits, is not part of it. -/
def integer? (text : String) : Option Int := do
  let chars ← dropUnderscores none (plainDigits (trim text.toList))
  let (negative, digits) := splitSign chars
  let n ← natural? digits
  return if negative then -Int.ofNat n else Int.ofNat n

/-- The decimal digits of a number. -/
def decimalDigits (n : Nat) : List Char :=
  Nat.toDigits 10 n

/-- The decimal form of an integer. -/
def integerText (n : Int) : String :=
  match n with
  | Int.ofNat n => String.ofList (decimalDigits n)
  | Int.negSucc n => String.ofList ('-' :: decimalDigits (n + 1))

end FluentGen.Number
