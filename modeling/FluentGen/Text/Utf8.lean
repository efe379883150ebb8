/-!
Text as bytes and back.
-/

namespace FluentGen.Text

/-- The UTF-8 bytes of a sequence of characters. -/
def utf8Chars (text : List Char) : List UInt8 :=
  text.flatMap String.utf8EncodeChar

/-- The UTF-8 bytes of a text. -/
def utf8 (text : String) : List UInt8 :=
  utf8Chars text.toList

/-- The text that the bytes spell, if they are UTF-8. -/
def ofUtf8? (bytes : List UInt8) : Option String :=
  String.fromUTF8? ⟨bytes.toArray⟩

/-- What the first byte of a character says: the start of its number, and between which bounds each
of its other bytes has to be. No other byte begins a character. -/
def firstByte? (b : Nat) : Option (Nat × List (Nat × Nat)) :=
  let tail := (0x80, 0xBF)
  if b < 0x80 then some (b, [])
  else if 0xC2 ≤ b ∧ b ≤ 0xDF then some (b - 0xC0, [tail])
  else if b = 0xE0 then some (0, [(0xA0, 0xBF), tail])
  else if b = 0xED then some (13, [(0x80, 0x9F), tail])
  else if 0xE1 ≤ b ∧ b ≤ 0xEF then some (b - 0xE0, [tail, tail])
  else if b = 0xF0 then some (0, [(0x90, 0xBF), tail, tail])
  else if b = 0xF4 then some (4, [(0x80, 0x8F), tail, tail])
  else if 0xF1 ≤ b ∧ b ≤ 0xF3 then some (b - 0xF0, [tail, tail, tail])
  else none

/-- Reads bytes of which some may not be UTF-8, behind the start of a number of which bytes are
still missing. The longest start of a character that does not go on becomes one replacement
character, and so does each byte that begins none. -/
def lossyFrom (number : Nat) (missing : List (Nat × Nat)) : List UInt8 → List Char
  | [] => if missing.isEmpty then [] else ['\ufffd']
  | b :: rest =>
    let goOn (number : Nat) (missing : List (Nat × Nat)) : List Char :=
      if missing.isEmpty then Char.ofNat number :: lossyFrom 0 [] rest
      else lossyFrom number missing rest
    let startHere : List Char :=
      match firstByte? b.toNat with
      | some (number, missing) => goOn number missing
      | none => '\ufffd' :: lossyFrom 0 [] rest
    match missing with
    | [] => startHere
    | (least, most) :: more =>
      if least ≤ b.toNat ∧ b.toNat ≤ most then goOn (64 * number + (b.toNat - 0x80)) more
      else '\ufffd' :: startHere

/-- The text that the bytes spell, with replacement characters for what is not UTF-8. -/
def ofUtf8Lossy (bytes : List UInt8) : String :=
  String.ofList (lossyFrom 0 [] bytes)

example : ofUtf8Lossy [0x61, 0xE2, 0x82, 0xAC, 0xE2, 0x82, 0x62, 0xFF] = "a€\ufffdb\ufffd" := by
  decide +kernel

end FluentGen.Text
