import FluentGen.Text.Basic
import FluentGen.Text.Character

/-!
Names in quotation marks, for messages. Single quotes are preferred; a name that holds a single
quote and no double quote is put into double quotes.
-/

namespace FluentGen.Text

/-- The quotation mark for a name. -/
def quoteFor (name : List Char) : Char :=
  if name.contains '\'' && !name.contains '"' then '"' else '\''

/-- The spelling of one character between the given quotation marks. What is not printable is
spelled by its code point with two, four or eight hexadecimal digits. -/
def quotedChar (quote c : Char) : List Char :=
  if c = quote ∨ c = '\\' then ['\\', c]
  else if c = '\t' then ['\\', 't']
  else if c = '\n' then ['\\', 'n']
  else if c = '\r' then ['\\', 'r']
  else if isPrintable c then [c]
  else if c.toNat < 0x100 then '\\' :: 'x' :: hexDigits 2 c.toNat
  else if c.toNat < 0x10000 then '\\' :: 'u' :: hexDigits 4 c.toNat
  else '\\' :: 'U' :: hexDigits 8 c.toNat

/-- A name in quotation marks. -/
def quoted (name : String) : String :=
  let chars := name.toList
  let quote := quoteFor chars
  String.ofList (quote :: chars.flatMap (quotedChar quote) ++ [quote])

end FluentGen.Text
