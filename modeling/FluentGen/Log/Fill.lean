import FluentGen.Number.Integer
import FluentGen.Text.Quoted

/-!
Filling the directives of a message with items. A directive is a percent sign, flags, a width, and
a letter that says how the item is written; two percent signs stand for one.
-/

namespace FluentGen.Log

/-- What a directive is filled with. -/
inductive Item where
  | text (s : String)
  | number (n : Int)
  deriving DecidableEq, Repr

/-- How an item is written: at the left side of its width or at the right one, with zeros in front,
with a plus sign, and at most so many characters of a text. -/
structure Directive where
  left : Bool := false
  zeros : Bool := false
  plus : Bool := false
  width : Nat := 0
  limit : Option Nat := none
  letter : Char
  deriving DecidableEq, Repr

/-- Whether a character is a flag of a directive. -/
def isFlag (c : Char) : Bool :=
  c = '-' || c = '0' || c = '+'

/-- The directive behind a percent sign, and what follows it. -/
def directive? (text : List Char) : Option (Directive × List Char) :=
  let flags := text.takeWhile isFlag
  let text := text.dropWhile isFlag
  let width := Number.ofDigits (text.takeWhile Char.isDigit)
  let text := text.dropWhile Char.isDigit
  let (limit, text) :=
    match text with
    | '.' :: rest =>
      (some (Number.ofDigits (rest.takeWhile Char.isDigit)), rest.dropWhile Char.isDigit)
    | _ => (none, text)
  match text with
  | [] => none
  | letter :: rest =>
    some ({ left := flags.contains '-', zeros := flags.contains '0', plus := flags.contains '+'
            width, limit, letter }, rest)

namespace Directive

/-- A text at its side of the width. -/
def pad (d : Directive) (text : List Char) : List Char :=
  let blanks := List.replicate (d.width - text.length) ' '
  if d.left then text ++ blanks else blanks ++ text

/-- A number at its side of the width. -/
def padNumber (d : Directive) (n : Int) : List Char :=
  let sign := if n < 0 then ['-'] else if d.plus then ['+'] else []
  let digits := (Number.integerText n.natAbs).toList
  if d.zeros && !d.left then
    sign ++ List.replicate (d.width - sign.length - digits.length) '0' ++ digits
  else d.pad (sign ++ digits)

/-- An item as the directive asks for it, if it fits. -/
def write? (d : Directive) (item : Item) : Option (List Char) :=
  let shown (quotes : Bool) : List Char :=
    let text := match item with
      | .text s => (if quotes then Text.quoted s else s).toList
      | .number n => (Number.integerText n).toList
    d.pad (text.take (d.limit.getD text.length))
  match d.letter, item with
  | 's', _ => some (shown false)
  | 'r', _ => some (shown true)
  | 'd', .number n => some (d.padNumber n)
  | 'i', .number n => some (d.padNumber n)
  | _, _ => none

end Directive

/-- The rest of a message with its directives filled, of which `skip` characters belong to a
directive that has been filled. A directive that no item fits stays as it is. -/
def fillFrom : (skip : Nat) → List Item → List Char → List Char
  | _, _, [] => []
  | skip + 1, items, _ :: rest => fillFrom skip items rest
  | 0, items, c :: rest =>
    if c = '%' then
      match directive? rest with
      | none => c :: fillFrom 0 items rest
      | some (d, behind) =>
        let taken := rest.length - behind.length
        if d.letter = '%' then '%' :: fillFrom taken items rest
        else
          match items with
          | [] => c :: fillFrom 0 items rest
          | item :: others =>
            match d.write? item with
            | some text => text ++ fillFrom taken others rest
            | none => c :: fillFrom 0 items rest
    else c :: fillFrom 0 items rest

/-- A message with its directives filled. Without items it stays as it is. -/
def fill (message : String) (items : List Item) : String :=
  if items.isEmpty then message
  else String.ofList (fillFrom 0 items message.toList)

end FluentGen.Log
