import FluentGen.Proofs.Text.Escape
import Mathlib.Algebra.Ring.Parity

/-!
An escaped text can stand between quotation marks. It is printable ASCII, and each of its double
quotes stands behind an odd number of backslashes: the pieces of the text end with an even number of
them, so a backslash at the start of a piece is itself not escaped.
-/

namespace FluentGen.Text

/-- Printable ASCII. -/
def IsPlain (text : List Char) : Prop :=
  ∀ c ∈ text, 32 ≤ c.toNat ∧ c.toNat < 127

instance (text : List Char) : Decidable (IsPlain text) :=
  List.decidableBAll _ text

/-- The number of backslashes that a text ends with. -/
def slashesAtEnd (text : List Char) : Nat :=
  (text.reverse.takeWhile (· = '\\')).length

/-- Every double quote stands behind an odd number of backslashes; the last of them escapes it. -/
def QuotesEscaped (text : List Char) : Prop :=
  ∀ front back, text = front ++ '"' :: back → Odd (slashesAtEnd front)

section Printable

theorem isPlain_octalEscape (b : UInt8) : IsPlain (octalEscape b) := by
  have hlt : b.toNat < 256 := b.toNat_lt
  have hdigit : ∀ {n}, n < 8 → 32 ≤ (octalDigit n).toNat ∧ (octalDigit n).toNat < 127 := by
    intro n hn
    rw [toNat_octalDigit hn]
    omega
  intro c hc
  simp only [octalEscape, List.mem_cons, List.not_mem_nil, or_false] at hc
  rcases hc with rfl | rfl | rfl | rfl
  · decide
  · exact hdigit (by omega)
  · exact hdigit (by omega)
  · exact hdigit (by omega)

theorem isPlain_escapeByte (b : UInt8) : IsPlain (escapeByte b) := by
  unfold escapeByte
  split
  iterate 6 decide
  split
  · next hprint =>
    intro c hc
    rw [List.mem_singleton.1 hc, toNat_charOfNat (by omega)]
    exact hprint
  · exact isPlain_octalEscape b

theorem isPlain_escapeBytes (bytes : List UInt8) : IsPlain (escapeBytes bytes) := by
  intro c hc
  obtain ⟨b, -, hb⟩ := List.mem_flatMap.1 hc
  exact isPlain_escapeByte b c hb

end Printable

section Quotes

theorem slashesAtEnd_concat (text : List Char) (c : Char) :
    slashesAtEnd (text ++ [c]) = if c = '\\' then slashesAtEnd text + 1 else 0 := by
  unfold slashesAtEnd
  rw [List.reverse_concat, List.takeWhile_cons]
  split
  · next h => rw [if_pos (of_decide_eq_true h), List.length_cons]
  · next h => rw [if_neg fun heq => h (decide_eq_true heq), List.length_nil]

theorem octalDigit_ne {n : Nat} (h : n < 8) {c : Char} (hc : c.toNat < 48 ∨ 56 ≤ c.toNat) :
    octalDigit n ≠ c := by
  rintro rfl
  rw [toNat_octalDigit h] at hc
  omega

variable {piece text : List Char}

/-- Behind a piece the number of backslashes is even again. -/
theorem Escaped.even_slashes {ns : List Nat} (h : Escaped piece ns) {before : List Char}
    (hbefore : Even (slashesAtEnd before)) : Even (slashesAtEnd (before ++ piece)) := by
  cases h with
  | plain hslash _ _ =>
    rw [slashesAtEnd_concat, if_neg hslash]
    exact Even.zero
  | @named e b _ _ =>
    rw [List.append_cons, slashesAtEnd_concat, slashesAtEnd_concat, if_pos rfl]
    split
    · exact hbefore.add even_two
    · exact Even.zero
  | @octal i j k _ _ hk =>
    rw [List.append_cons, List.append_cons, List.append_cons, slashesAtEnd_concat,
      if_neg (octalDigit_ne hk (by decide))]
    exact Even.zero

/-- A piece has a double quote only right behind the backslash that it begins with. -/
theorem Escaped.front_of_quote {ns : List Nat} (h : Escaped piece ns) {front back : List Char}
    (hquote : piece = front ++ '"' :: back) : front = ['\\'] := by
  cases h with
  | plain _ hplain _ =>
    cases front with
    | nil => exact absurd (List.cons.inj hquote).1 hplain
    | cons c front => cases front <;> cases hquote
  | @named e b _ _ =>
    cases front with
    | nil => cases hquote
    | cons c front =>
      cases front with
      | nil =>
        cases hquote
        rfl
      | cons d front => cases front <;> cases hquote
  | @octal i j k hi hj hk =>
    have hmem : '"' ∈ ['\\', octalDigit i, octalDigit j, octalDigit k] := by
      rw [hquote]
      exact List.mem_append_right _ List.mem_cons_self
    have hne : ∀ {n}, n < 8 → '"' ≠ octalDigit n := fun hn => (octalDigit_ne hn (by decide)).symm
    simp [hne hi, hne hj, hne hk] at hmem

-- The induction is on the pieces. The number of backslashes in front of the text is even at its
-- start, and behind every piece again.
theorem EscapedText.odd_slashes {bytes : List UInt8} (h : EscapedText text bytes)
    {before front back : List Char} (hbefore : Even (slashesAtEnd before))
    (hquote : text = front ++ '"' :: back) : Odd (slashesAtEnd (before ++ front)) := by
  induction h generalizing before front with
  | nil => simp at hquote
  | @cons piece rest bytes more hpiece _ ih =>
    rcases List.append_eq_append_iff.1 hquote with ⟨inner, hfront, hrest⟩ | ⟨inner, hinner, hback⟩
    · rw [hfront, ← List.append_assoc]
      exact ih (hpiece.even_slashes hbefore) hrest
    · cases inner with
      | nil =>
        have hodd : Odd (slashesAtEnd ((before ++ piece) ++ [])) :=
          ih (hpiece.even_slashes hbefore) hback.symm
        rwa [hinner, List.append_nil, List.append_nil] at hodd
      | cons c inner =>
        cases hback
        rw [hpiece.front_of_quote hinner, slashesAtEnd_concat, if_pos rfl]
        exact hbefore.add_one

theorem EscapedText.quotesEscaped {bytes : List UInt8} (h : EscapedText text bytes) :
    QuotesEscaped text := by
  intro front back hquote
  have hodd : Odd (slashesAtEnd ([] ++ front)) := h.odd_slashes Even.zero hquote
  exact hodd

theorem escapedText_escapeBytes (bytes : List UInt8) : EscapedText (escapeBytes bytes) bytes := by
  induction bytes with
  | nil => exact .nil
  | cons b rest ih =>
    change EscapedText (escapeByte b ++ escapeBytes rest) ([b] ++ rest)
    exact .cons (escaped_escapeByte b) ih

end Quotes

end FluentGen.Text
