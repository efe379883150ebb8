import FluentGen.Text.Escape
import Mathlib.Data.List.Basic

/-!
Reading an escaped text gives the bytes that were written. An escaped text is a sequence of pieces,
each a character that stands for itself, an escape named by one letter, or three octal digits. Each
of the two readings of a literal takes one piece after the other, so what holds of a piece holds of
the whole text.
-/

namespace FluentGen.Text

/-- The escapes that writing uses: the letters behind the backslash. -/
def escapeLetters : List Char := ['t', 'n', 'r', '"', '\'', '\\']

/-- A digit below eight. -/
def octalDigit (n : Nat) : Char := Char.ofNat (48 + n)

/-- A piece of an escaped text and the numbers of the bytes that it stands for. -/
inductive Escaped : List Char → List Nat → Prop where
  | plain {c : Char} (hslash : c ≠ '\\') (hquote : c ≠ '"') (hline : c ≠ '\n') :
    Escaped [c] ((String.utf8EncodeChar c).map UInt8.toNat)
  | named {e : Char} {b : Nat} (hletter : e ∈ escapeLetters)
      (hbyte : Unescape.namedByte? e.toNat = some b) : Escaped ['\\', e] [b]
  | octal {i j k : Nat} (hi : i < 8) (hj : j < 8) (hk : k < 8) :
    Escaped ['\\', octalDigit i, octalDigit j, octalDigit k] [64 * i + 8 * j + k]

section Bytes

theorem toNat_charOfNat {n : Nat} (h : n < 0xD800) : (Char.ofNat n).toNat = n := by
  have hvalid : n.isValidChar := Or.inl h
  rw [Char.ofNat, dif_pos hvalid]
  rfl

theorem toNat_octalDigit {n : Nat} (h : n < 8) : (octalDigit n).toNat = 48 + n :=
  toNat_charOfNat (by omega)

theorem octalValue?_octalDigit {n : Nat} (h : n < 8) :
    Unescape.octalValue? (48 + n) = some n := by
  rw [Unescape.octalValue?, if_pos (by omega)]
  simp

/-- An ASCII character is one byte. -/
theorem utf8EncodeChar_of_lt {c : Char} (h : c.toNat < 128) :
    (String.utf8EncodeChar c).map UInt8.toNat = [c.toNat] := by
  have hle : c.val.toNat ≤ 127 := Nat.le_of_lt_succ h
  have hmod : c.val.toNat % 256 = c.val.toNat := Nat.mod_eq_of_lt (by omega)
  simp only [String.utf8EncodeChar, if_pos hle, List.map_cons, List.map_nil,
    UInt8.toNat_ofNat', Nat.reducePow, hmod]
  rfl

/-- The bytes of a character above ASCII are no ASCII characters. -/
theorem le_of_mem_utf8EncodeChar {c : Char} (h : 128 ≤ c.toNat) :
    ∀ b ∈ (String.utf8EncodeChar c).map UInt8.toNat, 128 ≤ b := by
  have hgt : ¬ c.val.toNat ≤ 127 := by
    have : c.val.toNat = c.toNat := rfl
    omega
  intro b hb
  simp only [String.utf8EncodeChar, if_neg hgt] at hb
  split at hb
  · simp only [List.map_cons, List.map_nil, UInt8.toNat_ofNat', List.mem_cons,
      List.not_mem_nil, or_false] at hb
    omega
  · split at hb
    · simp only [List.map_cons, List.map_nil, UInt8.toNat_ofNat', List.mem_cons,
        List.not_mem_nil, or_false] at hb
      omega
    · simp only [List.map_cons, List.map_nil, UInt8.toNat_ofNat', List.mem_cons,
        List.not_mem_nil, or_false] at hb
      omega

end Bytes

section FirstReading

open Unescape

theorem spellOut_plain {c : Char} (h : c ≠ '\\') (rest : List Char) :
    spellOut (c :: rest) = (spellOut rest).map (c.toNat :: ·) := by
  cases rest with
  | nil => rfl
  | cons e rest =>
    rw [spellOut.eq_def]
    simp only [if_pos h]
    rfl

theorem spellOut_escape {e : Char} (hu : e ≠ 'u') (hU : e ≠ 'U') (hx : e ≠ 'x')
    (hlatin : e.toNat < 256) (rest : List Char) :
    spellOut ('\\' :: e :: rest) = (spellOut rest).map ([92, e.toNat] ++ ·) := by
  rw [spellOut.eq_def]
  simp only [ne_eq, not_true_eq_false, if_false, if_neg hu, if_neg hU, if_neg hx,
    if_neg (Nat.not_le.2 hlatin)]
  rfl

/-- The first reading leaves what writing produces as it is. -/
theorem Escaped.spellOut_append {piece : List Char} {bytes : List Nat}
    (h : Escaped piece bytes) (rest : List Char) :
    spellOut (piece ++ rest) = (spellOut rest).map (piece.map Char.toNat ++ ·) := by
  cases h with
  | plain hslash _ _ => exact spellOut_plain hslash rest
  | @named e b hletter _ =>
    have hall : ∀ e ∈ escapeLetters, e ≠ 'u' ∧ e ≠ 'U' ∧ e ≠ 'x' ∧ e.toNat < 256 := by
      simp [escapeLetters]
    obtain ⟨hu, hU, hx, hlatin⟩ := hall e hletter
    exact spellOut_escape hu hU hx hlatin rest
  | @octal i j k hi hj hk =>
    have hdigit : ∀ {n}, n < 8 → octalDigit n ≠ '\\' ∧ octalDigit n ≠ 'u' ∧
        octalDigit n ≠ 'U' ∧ octalDigit n ≠ 'x' ∧ (octalDigit n).toNat < 256 := by
      intro n hn
      have hall : ∀ n < 8, octalDigit n ≠ '\\' ∧ octalDigit n ≠ 'u' ∧ octalDigit n ≠ 'U' ∧
          octalDigit n ≠ 'x' ∧ (octalDigit n).toNat < 256 := by decide
      exact hall n hn
    obtain ⟨-, hu, hU, hx, hlatin⟩ := hdigit hi
    simp only [List.cons_append, List.nil_append]
    rw [spellOut_escape hu hU hx hlatin, spellOut_plain (hdigit hj).1,
      spellOut_plain (hdigit hk).1]
    cases spellOut rest with
    | error e => rfl
    | ok codes => rfl

theorem encode_map_toNat (text : List Char) :
    encode (text.map Char.toNat) = .ok ((utf8Chars text).map UInt8.toNat) := by
  have hvalid : (text.map Char.toNat).any isSurrogate = false := by
    rw [List.any_map, List.any_eq_false]
    intro c _
    have hc : c.toNat < 0xD800 ∨ 0xE000 ≤ c.toNat := by
      rcases c.valid with h | h
      · exact Or.inl h
      · exact Or.inr h.1
    simp only [Function.comp_apply, isSurrogate, Bool.and_eq_true, decide_eq_true_eq]
    omega
  unfold encode
  rw [hvalid, utf8Chars, List.map_flatMap, List.flatMap_map]
  simp [Char.ofNat_toNat]

end FirstReading

section SecondReading

open Unescape

theorem numbers_plain {n : Nat} (h : n ≠ 92) (rest : List Nat) :
    numbers (n :: rest) = (numbers rest).map (n :: ·) := by
  cases rest with
  | nil =>
    rw [numbers.eq_def]
    simp only [if_neg h]
    rfl
  | cons e rest =>
    rw [numbers.eq_def]
    simp only [if_pos h]
    rfl

theorem numbers_plain_append {ns : List Nat} (h : ∀ n ∈ ns, n ≠ 92) (rest : List Nat) :
    numbers (ns ++ rest) = (numbers rest).map (ns ++ ·) := by
  induction ns with
  | nil => cases hr : numbers rest <;> simp [hr, Except.map]
  | cons n ns ih =>
    have hns : ∀ n ∈ ns, n ≠ 92 := fun m hm => h m (List.mem_cons_of_mem n hm)
    rw [List.cons_append, numbers_plain (h n List.mem_cons_self), ih hns]
    cases numbers rest <;> rfl

theorem numbers_named {e b : Nat} (h : namedByte? e = some b) (rest : List Nat) :
    numbers (92 :: e :: rest) = (numbers rest).map (b :: ·) := by
  have hline : e ≠ 10 := by
    rintro rfl
    cases h
  rw [numbers.eq_def]
  simp only [ne_eq, not_true_eq_false, if_false, if_neg hline, h]
  rfl

theorem numbers_octal {i j k : Nat} (hi : i < 8) (hj : j < 8) (hk : k < 8) (rest : List Nat) :
    numbers (92 :: (48 + i) :: (48 + j) :: (48 + k) :: rest) =
      (numbers rest).map ((64 * i + 8 * j + k) :: ·) := by
  have hnamed : namedByte? (48 + i) = none := by
    have hall : ∀ i < 8, namedByte? (48 + i) = none := by decide
    exact hall i hi
  have hline : 48 + i ≠ 10 := by omega
  rw [numbers.eq_def]
  simp only [ne_eq, not_true_eq_false, if_false, if_neg hline, hnamed,
    octalValue?_octalDigit hi, octalValue?_octalDigit hj, octalValue?_octalDigit hk]
  rfl

/-- The second reading turns a piece into its bytes. -/
theorem Escaped.numbers_append {piece : List Char} {bytes : List Nat}
    (h : Escaped piece bytes) (rest : List Nat) :
    numbers ((utf8Chars piece).map UInt8.toNat ++ rest) = (numbers rest).map (bytes ++ ·) := by
  cases h with
  | @plain c hslash _ _ =>
    have hutf : utf8Chars [c] = String.utf8EncodeChar c := List.append_nil _
    rw [hutf]
    refine numbers_plain_append ?_ rest
    intro b hb
    by_cases hascii : c.toNat < 128
    · rw [utf8EncodeChar_of_lt hascii, List.mem_singleton] at hb
      rintro rfl
      exact hslash (Char.toNat_inj.1 hb.symm)
    · have := le_of_mem_utf8EncodeChar (by omega) b hb
      omega
  | @named e b hletter hbyte =>
    have hall : ∀ e ∈ escapeLetters, e.toNat < 128 := by simp [escapeLetters]
    have hutf : (utf8Chars ['\\', e]).map UInt8.toNat = [92, e.toNat] := by
      simp only [utf8Chars, List.flatMap_cons, List.flatMap_nil, List.append_nil, List.map_append]
      rw [utf8EncodeChar_of_lt (hall e hletter)]
      rfl
    rw [hutf]
    exact numbers_named hbyte rest
  | @octal i j k hi hj hk =>
    have hbyte : ∀ {n}, n < 8 →
        (String.utf8EncodeChar (octalDigit n)).map UInt8.toNat = [48 + n] := by
      intro n hn
      have hnat := toNat_octalDigit hn
      rw [utf8EncodeChar_of_lt (by omega), hnat]
    have hutf : (utf8Chars ['\\', octalDigit i, octalDigit j, octalDigit k]).map UInt8.toNat =
        [92, 48 + i, 48 + j, 48 + k] := by
      simp only [utf8Chars, List.flatMap_cons, List.flatMap_nil, List.append_nil, List.map_append]
      rw [hbyte hi, hbyte hj, hbyte hk]
      rfl
    rw [hutf]
    exact numbers_octal hi hj hk rest

end SecondReading

/-- An escaped text, piece by piece, and the bytes that it stands for. -/
inductive EscapedText : List Char → List UInt8 → Prop where
  | nil : EscapedText [] []
  | cons {piece rest : List Char} {bytes more : List UInt8}
      (hpiece : Escaped piece (bytes.map UInt8.toNat)) (hrest : EscapedText rest more) :
    EscapedText (piece ++ rest) (bytes ++ more)

namespace EscapedText

variable {text : List Char} {bytes : List UInt8}

theorem spellOut_eq (h : EscapedText text bytes) :
    Unescape.spellOut text = .ok (text.map Char.toNat) := by
  induction h with
  | nil => rfl
  | cons hpiece _ ih =>
    rw [hpiece.spellOut_append, ih, List.map_append]
    rfl

theorem numbers_eq (h : EscapedText text bytes) :
    Unescape.numbers ((utf8Chars text).map UInt8.toNat) = .ok (bytes.map UInt8.toNat) := by
  induction h with
  | nil => rfl
  | @cons piece rest bytes more hpiece _ ih =>
    have hutf : utf8Chars (piece ++ rest) = utf8Chars piece ++ utf8Chars rest :=
      List.flatMap_append
    rw [hutf, List.map_append, hpiece.numbers_append, ih, List.map_append]
    rfl

/-- Reading an escaped text gives the bytes that it stands for. -/
theorem unescapeChars_eq (h : EscapedText text bytes) : unescapeChars text = .ok bytes := by
  have hsmall : (bytes.map UInt8.toNat).all (· < 256) = true := by
    rw [List.all_map, List.all_eq_true]
    intro b _
    exact decide_eq_true b.toNat_lt
  have hback : (bytes.map UInt8.toNat).map Nat.toUInt8 = bytes := by
    simp [Function.comp_def]
  calc unescapeChars text
      = Unescape.toBytes (bytes.map UInt8.toNat) := by
        simp only [unescapeChars, h.spellOut_eq, encode_map_toNat, h.numbers_eq, bind, Except.bind]
    _ = .ok bytes := by
        rw [Unescape.toBytes, if_pos hsmall, hback]

end EscapedText

section Writing

/-- What is written for a byte is one piece that stands for it. -/
theorem escaped_escapeByte (b : UInt8) : Escaped (escapeByte b) [b.toNat] := by
  have hlt : b.toNat < 256 := b.toNat_lt
  unfold escapeByte
  split
  · next h => exact h ▸ .named (by decide) rfl
  · next h => exact h ▸ .named (by decide) rfl
  · next h => exact h ▸ .named (by decide) rfl
  · next h => exact h ▸ .named (by decide) rfl
  · next h => exact h ▸ .named (by decide) rfl
  · next h => exact h ▸ .named (by decide) rfl
  · next n h9 h10 h13 h34 h39 h92 =>
    split
    · next hprint =>
      have hnat : (Char.ofNat b.toNat).toNat = b.toNat := toNat_charOfNat (by omega)
      have hne : ∀ d : Char, b.toNat ≠ d.toNat → Char.ofNat b.toNat ≠ d := by
        rintro d hd rfl
        exact hd hnat.symm
      have hpiece := Escaped.plain (hne '\\' h92) (hne '"' h34) (hne '\n' h10)
      rwa [utf8EncodeChar_of_lt (by omega), hnat] at hpiece
    · have hsum : 64 * (b.toNat / 64) + 8 * (b.toNat / 8 % 8) + b.toNat % 8 = b.toNat := by
        omega
      have hpiece := Escaped.octal (i := b.toNat / 64) (j := b.toNat / 8 % 8) (k := b.toNat % 8)
        (by omega) (by omega) (by omega)
      rwa [hsum] at hpiece

/-- What is written for a character is one piece that stands for its bytes. -/
theorem escaped_escapeChar (c : Char) :
    Escaped (escapeChar c) ((String.utf8EncodeChar c).map UInt8.toNat) := by
  unfold escapeChar
  split
  · next h =>
    have hnat : c.toNat.toUInt8.toNat = c.toNat := by
      simp only [Nat.toUInt8_eq, UInt8.toNat_ofNat', Nat.reducePow]
      omega
    have hpiece := escaped_escapeByte c.toNat.toUInt8
    rwa [hnat, ← utf8EncodeChar_of_lt h] at hpiece
  · next h =>
    have hne : ∀ d : Char, d.toNat < 128 → c ≠ d := by
      rintro d hd rfl
      exact h hd
    exact .plain (hne _ (by decide)) (hne _ (by decide)) (hne _ (by decide))

theorem escapedText_flatMap_escapeChar (text : List Char) :
    EscapedText (text.flatMap escapeChar) (utf8Chars text) := by
  induction text with
  | nil => exact .nil
  | cons c rest ih => exact .cons (escaped_escapeChar c) ih

theorem utf8Encode_eq (text : List Char) : text.utf8Encode = ⟨(utf8Chars text).toArray⟩ := by
  rw [List.utf8Encode, ← utf8Chars]
  exact ByteArray.ext List.data_toByteArray

/-- The bytes of a text spell that text. -/
theorem ofUtf8?_utf8Chars (text : List Char) :
    ofUtf8? (utf8Chars text) = some (String.ofList text) := by
  rw [ofUtf8?, ← utf8Encode_eq, String.fromUTF8?, dif_pos ByteArray.isValidUTF8_utf8Encode]
  rfl

/-- Bytes spell a text exactly if they are the bytes of the text. -/
theorem ofUtf8?_eq_some_iff {bytes : List UInt8} {text : String} :
    ofUtf8? bytes = some text ↔ bytes = utf8 text := by
  constructor
  · intro h
    rw [ofUtf8?, String.fromUTF8?] at h
    split at h
    · cases h
      have hencoded : (⟨(utf8 (String.fromUTF8 ⟨bytes.toArray⟩ ‹_›)).toArray⟩ : ByteArray) =
          ⟨bytes.toArray⟩ := by
        rw [utf8, ← utf8Encode_eq, String.utf8Encode_toList]
        rfl
      exact (List.toArray_inj (ByteArray.mk.inj hencoded)).symm
    · cases h
  · rintro rfl
    rw [utf8, ofUtf8?_utf8Chars, String.ofList_toList]

theorem utf8_injective : Function.Injective utf8 := by
  intro first second h
  have hfirst : ofUtf8? (utf8 first) = some first := ofUtf8?_eq_some_iff.2 rfl
  rw [ofUtf8?_eq_some_iff.2 h] at hfirst
  exact (Option.some.inj hfirst).symm

end Writing

end FluentGen.Text
