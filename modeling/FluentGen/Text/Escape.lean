import FluentGen.Text.Basic
import FluentGen.Text.Utf8

/-!
The escapes of string literals. Writing turns bytes into printable ASCII; reading turns a literal
back into bytes and is more liberal than writing: it knows hexadecimal and Unicode escapes and
leaves an escape it does not know as it is.

A named escape, the letter N with the name of a character in braces, is taken for malformed whatever
the name is: reading knows no names of characters, although a reader that knows them accepts such an
escape.

Reading goes over the text twice. The first reading spells out Unicode escapes as characters, the
second one turns the remaining escapes into bytes, so a backslash that the first one spelled out
begins an escape of the second.
-/

namespace FluentGen.Text

/-- Why a literal has no bytes: an escape is cut short or out of range, or it stands for a number
that is not a byte or for half of a surrogate pair. -/
inductive EscapeError where
  | malformed
  | unrepresentable
  deriving DecidableEq, Repr

/-- A backslash and three octal digits. -/
def octalEscape (b : UInt8) : List Char :=
  let digit (n : Nat) : Char := Char.ofNat (48 + n)
  ['\\', digit (b.toNat / 64), digit (b.toNat / 8 % 8), digit (b.toNat % 8)]

/-- The escaped form of one byte: a named escape, the character itself if it is printable ASCII,
and three octal digits otherwise. -/
def escapeByte (b : UInt8) : List Char :=
  match b.toNat with
  | 9 => ['\\', 't']
  | 10 => ['\\', 'n']
  | 13 => ['\\', 'r']
  | 34 => ['\\', '"']
  | 39 => ['\\', '\'']
  | 92 => ['\\', '\\']
  | n => if 32 ≤ n ∧ n < 127 then [Char.ofNat n] else octalEscape b

/-- The bytes as the inside of a string literal. -/
def escapeBytes (bytes : List UInt8) : List Char :=
  bytes.flatMap escapeByte

/-- The bytes as the inside of a string literal of printable ASCII. -/
def escapeToAscii (bytes : List UInt8) : String :=
  String.ofList (escapeBytes bytes)

/-- The escaped form of one character where the literal may hold any character above ASCII. -/
def escapeChar (c : Char) : List Char :=
  if c.toNat < 128 then escapeByte c.toNat.toUInt8 else [c]

/-- The text as the inside of a string literal that keeps characters above ASCII. -/
def escapeKeepingUnicode (text : String) : String :=
  String.ofList (text.toList.flatMap escapeChar)

namespace Unescape

/-- Half of a surrogate pair, which is no character. -/
def isSurrogate (n : Nat) : Bool :=
  0xD800 ≤ n && n < 0xE000

/-- The code point that hexadecimal digits name. -/
def codePoint (digits : List Char) : Except EscapeError Nat :=
  match Text.hexNumber? digits with
  | some n => if n < 0x110000 then .ok n else .error .malformed
  | none => .error .malformed

/-- The spelled-out escape of a character above Latin-1, with the code point in hexadecimal. -/
def namedCodePoint (n : Nat) : List Nat :=
  if n < 0x10000 then 'u'.toNat :: (Text.hexDigits 4 n).map Char.toNat
  else 'U'.toNat :: (Text.hexDigits 8 n).map Char.toNat

/-- The first reading. Every backslash takes the next character with it. A Unicode escape becomes
its code point and a hexadecimal escape of one digit gets a second one; a character above Latin-1
behind a backslash is spelled by its code point, with the backslash doubled. -/
def spellOut : List Char → Except EscapeError (List Nat)
  | [] => .ok []
  | [c] => .ok [c.toNat]
  | c :: e :: rest =>
    if c ≠ '\\' then do return c.toNat :: (← spellOut (e :: rest))
    else if e = 'u' then
      match rest with
      | a :: b :: c :: d :: rest => do
        let n ← codePoint [a, b, c, d]
        return n :: (← spellOut rest)
      | _ => .error .malformed
    else if e = 'U' then
      match rest with
      | a :: b :: c :: d :: a' :: b' :: c' :: d' :: rest => do
        let n ← codePoint [a, b, c, d, a', b', c', d']
        return n :: (← spellOut rest)
      | _ => .error .malformed
    else if e = 'x' then
      match rest with
      | [] => .ok [92, 'x'.toNat]
      | a :: rest =>
        let alone := match rest with
          | b :: _ => (Text.hexValue? b).isNone
          | [] => true
        if (Text.hexValue? a).isSome && alone then do
          return 92 :: 'x'.toNat :: '0'.toNat :: a.toNat :: (← spellOut rest)
        else do
          return 92 :: 'x'.toNat :: (← spellOut (a :: rest))
    else if 256 ≤ e.toNat then do
      return [92, 92] ++ namedCodePoint e.toNat ++ (← spellOut rest)
    else do
      return 92 :: e.toNat :: (← spellOut rest)

/-- The byte of an escape that is named by one letter; a backslash and the quotes stand for
themselves. -/
def namedByte? (e : Nat) : Option Nat :=
  if e = 'a'.toNat then some 7
  else if e = 'b'.toNat then some 8
  else if e = 't'.toNat then some 9
  else if e = 'n'.toNat then some 10
  else if e = 'v'.toNat then some 11
  else if e = 'f'.toNat then some 12
  else if e = 'r'.toNat then some 13
  else if e = 34 ∨ e = 39 ∨ e = 92 then some e
  else none

/-- The value of an octal digit. -/
def octalValue? (n : Nat) : Option Nat :=
  if 48 ≤ n ∧ n < 56 then some (n - 48) else none

/-- The code point that hexadecimal digits name, the digits given as bytes. -/
def numberOf (digits : List Nat) : Except EscapeError Nat :=
  codePoint (digits.map Char.ofNat)

/-- The second reading. Each escape becomes a number, which is a byte unless the escape asks for
more than 255; a backslash before a line break vanishes with it. -/
def numbers : List Nat → Except EscapeError (List Nat)
  | [] => .ok []
  | [c] => if c = 92 then .error .malformed else .ok [c]
  | c :: e :: rest =>
    if c ≠ 92 then do return c :: (← numbers (e :: rest))
    else if e = 10 then numbers rest
    else
      match namedByte? e with
      | some b => do return b :: (← numbers rest)
      | none =>
        match octalValue? e with
        | some o =>
          match rest with
          | [] => .ok [o]
          | e₂ :: rest₂ =>
            match octalValue? e₂ with
            | none => do return o :: (← numbers (e₂ :: rest₂))
            | some o₂ =>
              match rest₂ with
              | [] => .ok [8 * o + o₂]
              | e₃ :: rest₃ =>
                match octalValue? e₃ with
                | none => do return (8 * o + o₂) :: (← numbers (e₃ :: rest₃))
                | some o₃ => do return (64 * o + 8 * o₂ + o₃) :: (← numbers rest₃)
        | none =>
          if e = 'x'.toNat then
            match rest with
            | a :: b :: rest => do
              let n ← numberOf [a, b]
              return n :: (← numbers rest)
            | _ => .error .malformed
          else if e = 'u'.toNat then
            match rest with
            | a :: b :: c :: d :: rest => do
              let n ← numberOf [a, b, c, d]
              return n :: (← numbers rest)
            | _ => .error .malformed
          else if e = 'U'.toNat then
            match rest with
            | a :: b :: c :: d :: a' :: b' :: c' :: d' :: rest => do
              let n ← numberOf [a, b, c, d, a', b', c', d']
              return n :: (← numbers rest)
            | _ => .error .malformed
          else if e = 'N'.toNat then .error .malformed
          else do return 92 :: e :: (← numbers rest)

/-- The UTF-8 bytes of code points, of which none may be half of a surrogate pair. -/
def encode (codes : List Nat) : Except EscapeError (List Nat) :=
  if codes.any isSurrogate then .error .unrepresentable
  else .ok (codes.flatMap fun n => (String.utf8EncodeChar (Char.ofNat n)).map UInt8.toNat)

/-- Numbers as bytes. -/
def toBytes (ns : List Nat) : Except EscapeError (List UInt8) :=
  if ns.all (· < 256) then .ok (ns.map Nat.toUInt8) else .error .unrepresentable

end Unescape

/-- The bytes that the inside of a string literal stands for. -/
def unescapeChars (text : List Char) : Except EscapeError (List UInt8) := do
  let codes ← Unescape.spellOut text
  let encoded ← Unescape.encode codes
  let ns ← Unescape.numbers encoded
  Unescape.toBytes ns

/-- The bytes that the inside of a string literal stands for. -/
def unescape (text : String) : Except EscapeError (List UInt8) :=
  unescapeChars text.toList

end FluentGen.Text
