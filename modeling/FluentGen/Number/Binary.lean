import FluentGen.Number.Decimal

/-!
Double precision values and their short decimal form. All arithmetic is exact: a value is an
integer times a power of two, and both roundings, to 53 binary digits and to six decimal ones, go
to the nearest value and in the middle to the even one.
-/

namespace FluentGen.Number

/-- A quotient rounded to the nearest integer, and in the middle to the even one. -/
def roundQuotient (num den : Nat) : Nat :=
  let q := num / den
  let r := num % den
  if 2 * r < den then q
  else if den < 2 * r then q + 1
  else if q % 2 = 0 then q else q + 1

/-- A number as numerator and denominator: `n` times `base` to the given power. -/
def scaled (n base : Nat) (exponent : Int) : Nat × Nat :=
  match exponent with
  | Int.ofNat e => (n * Nat.pow base e, 1)
  | Int.negSucc e => (n, Nat.pow base (e + 1))

/-- A double precision value: `significand * 2 ^ exponent`, or no finite number. -/
inductive Binary where
  | finite (negative : Bool) (significand : Nat) (exponent : Int)
  | infinite (negative : Bool)
  | notANumber
  deriving DecidableEq, Repr

namespace Binary

/-- The exponent of the last place of a positive quotient's significand: 53 binary digits are kept
unless the value is so small that the places end at `2 ^ (-1074)`. -/
def lastPlace (num den : Nat) : Int :=
  let guess : Int := Int.ofNat num.log2 - Int.ofNat den.log2
  let (n, d) := scaled num 2 (-guess)
  let top := if n < den * d then guess - 1 else guess
  max (top - 52) (-1074)

/-- The value nearest to a positive quotient. -/
def ofQuotient (negative : Bool) (num den : Nat) : Binary :=
  let e := lastPlace num den
  let (n, d) := scaled num 2 (-e)
  let m := roundQuotient n (den * d)
  if 971 < e ∨ (e = 971 ∧ Nat.pow 2 53 ≤ m) then .infinite negative
  else .finite negative m e

/-- The value nearest to a decimal number. A number of too great or too small a magnitude is
recognized by the place of its first digit. -/
def ofDecimal : Decimal → Binary
  | .infinite negative => .infinite negative
  | .notANumber => .notANumber
  | .finite negative digits exponent =>
    let place := Int.ofNat (decimalDigits digits).length + exponent
    if digits = 0 ∨ place < -330 then .finite negative 0 0
    else if 310 < place then .infinite negative
    else
      let (n, d) := scaled digits 10 exponent
      ofQuotient negative n d

end Binary

/-- The number of significant digits of the short form. -/
def shortDigits : Nat := 6

/-- The place of the first decimal digit of a positive quotient: 0 for the ones. -/
def firstPlace (num den : Nat) : Int :=
  let guess : Int :=
    Int.ofNat (decimalDigits num).length - Int.ofNat (decimalDigits den).length
  let (n, d) := scaled num 10 (-guess)
  if n < den * d then guess - 1 else guess

/-- The first six digits of a positive quotient, rounded, and the place of the first of them. -/
def leadingDigits (num den : Nat) : List Char × Int :=
  let place := firstPlace num den
  let (n, d) := scaled num 10 (Int.ofNat shortDigits - 1 - place)
  let rounded := roundQuotient n (den * d)
  if rounded = Nat.pow 10 shortDigits then
    (decimalDigits (Nat.pow 10 (shortDigits - 1)), place + 1)
  else (decimalDigits rounded, place)

/-- Digits behind a point without the zeros at their end; nothing if only zeros are left. -/
def fraction (digits : List Char) : List Char :=
  match (digits.reverse.dropWhile (· = '0')).reverse with
  | [] => []
  | kept => '.' :: kept

/-- The exponent of the short form, with a sign and at least two digits. -/
def exponentText (exponent : Int) : List Char :=
  let digits := decimalDigits exponent.natAbs
  let padded := if digits.length < 2 then '0' :: digits else digits
  'e' :: (if exponent < 0 then '-' else '+') :: padded

/-- Writes six digits whose first stands at the given place: positional from `0.0001` up to below
a million, with an exponent otherwise. -/
def shortForm (digits : List Char) (place : Int) : List Char :=
  if -4 ≤ place ∧ place < Int.ofNat shortDigits then
    match place with
    | Int.ofNat p => digits.take (p + 1) ++ fraction (digits.drop (p + 1))
    | Int.negSucc p => '0' :: fraction (List.replicate p '0' ++ digits)
  else digits.take 1 ++ fraction (digits.drop 1) ++ exponentText place

/-- The short decimal form of a double precision value. -/
def shortText : Binary → String
  | .notANumber => "nan"
  | .infinite negative => if negative then "-inf" else "inf"
  | .finite negative significand exponent =>
    let digits :=
      if significand = 0 then ['0']
      else
        let (n, d) := scaled significand 2 exponent
        let (digits, place) := leadingDigits n d
        shortForm digits place
    String.ofList ((if negative then ['-'] else []) ++ digits)

end FluentGen.Number
