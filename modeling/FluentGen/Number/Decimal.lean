import FluentGen.Number.Integer

/-!
Reading decimal numbers with a fraction and an exponent. Nothing is rounded here: a finite number
is digits times a power of ten.
-/

namespace FluentGen.Number

/-- A number as it is written. -/
inductive Decimal where
  | finite (negative : Bool) (digits : Nat) (exponent : Int)
  | infinite (negative : Bool)
  | notANumber
  deriving DecidableEq, Repr

namespace Decimal

/-- The longest run of digits at the start, and the rest. -/
def digitRun (text : List Char) : List Char × List Char :=
  (text.takeWhile Char.isDigit, text.dropWhile Char.isDigit)

/-- The exponent part: nothing, or a letter `e` and an integer. -/
def exponent? : List Char → Option Int
  | [] => some 0
  | c :: rest =>
    if c = 'e' ∨ c = 'E' then
      let (negative, digits) := splitSign rest
      (natural? digits).map fun n => if negative then -Int.ofNat n else Int.ofNat n
    else none

/-- An unsigned number: digits with a point somewhere, at least one digit, then the exponent. -/
def unsigned? (negative : Bool) (text : List Char) : Option Decimal := do
  let (whole, rest) := digitRun text
  let (fraction, rest) := match rest with
    | '.' :: rest => digitRun rest
    | rest => ([], rest)
  if whole.isEmpty && fraction.isEmpty then none
  let e ← exponent? rest
  return .finite negative (ofDigits (whole ++ fraction)) (e - fraction.length)

/-- The spellings of the values that are no finite number. -/
def special? (negative : Bool) (text : List Char) : Option Decimal :=
  let word := String.ofList (text.map Char.toLower)
  if word == "inf" || word == "infinity" then some (.infinite negative)
  else if word == "nan" then some .notANumber
  else none

/-- Reads a decimal number. -/
def read? (text : String) : Option Decimal := do
  let chars ← dropUnderscores none (plainDigits (trim text.toList))
  let (negative, rest) := splitSign chars
  special? negative rest <|> unsigned? negative rest

end Decimal

end FluentGen.Number
