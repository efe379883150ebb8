import FluentGen.Proofs.Number.ShortText
import FluentGen.Schema.FieldType

/-!
Defaults of numbers. An integer is written in decimal again. A number with a fraction is written in
six digits, so that an integer is only kept if six digits are enough for it.
-/

namespace FluentGen.Schema

open Number

variable {n : ℤ}

/-- Whether an integer has six digits in front of the zeros at its end. -/
theorem sixDigits_iff : (∃ m k : ℤ, (n : ℚ) = m * 10 ^ k ∧ |m| < 10 ^ 6) ↔
    ∃ (m : ℤ) (k : ℕ), n = m * 10 ^ k ∧ |m| < 10 ^ 6 := by
  constructor
  · rintro ⟨m, k, hn, hm⟩
    cases k with
    | ofNat k =>
      rw [Int.ofNat_eq_natCast, zpow_natCast] at hn
      exact ⟨m, k, by exact_mod_cast hn, hm⟩
    | negSucc k =>
      -- An integer that is a fraction of another one is not greater.
      have hm' : n * 10 ^ (k + 1) = m := by
        rw [zpow_negSucc, ← div_eq_mul_inv, eq_div_iff (by positivity)] at hn
        exact_mod_cast hn
      have hle : |n| ≤ |m| := by
        rw [← hm', abs_mul]
        exact le_mul_of_one_le_right (abs_nonneg n) (Int.one_le_abs (by positivity))
      exact ⟨n, 0, by rw [pow_zero, mul_one], hle.trans_lt hm⟩
  · rintro ⟨m, k, hn, hm⟩
    refine ⟨m, k, ?_, hm⟩
    rw [hn, zpow_natCast]
    push_cast
    rfl

section Kinds

variable {text : String}

theorem integerDefault_eq (h : Spells text n) : integerDefault text = .ok (toString n) := by
  simp only [integerDefault, h.integer?, integerText_eq]

/-- The value of the text for a double precision number is that of the integer in six digits. -/
theorem realDefault_spec (h : Spells text n) (hn : |n| ≤ 2 ^ 53) :
    ∃ out value, realDefault text = .ok out ∧ Denotes out value ∧ RoundsShort n value := by
  obtain ⟨negative, hread, hsigned⟩ := h.read?
  have hsize : n.natAbs ≤ 2 ^ 53 := by
    rw [Int.abs_eq_natAbs] at hn
    exact_mod_cast hn
  obtain ⟨m, e, hbinary, hvalue⟩ := Binary.ofDecimal_natural negative hsize
  obtain ⟨value, hdenotes, hround⟩ := denotes_shortText negative m e
  refine ⟨_, _, ?_, hdenotes, ?_⟩
  · simp only [realDefault, hread, hbinary]
  · have hcast : (n : ℚ) = signed negative (n.natAbs : ℚ) := by
      rw [hsigned]
      cases negative <;> simp [signed]
    rw [hcast, ← hvalue]
    exact hround.signed negative

end Kinds

/-- The default of an integer field keeps its value and is written in the usual way. The default of
a float or double field that is an integer without rounding becomes the integer in six digits: it
keeps its value if and only if these are enough. -/
theorem value_of_numericDefault (f : Field) (text : String) (n : ℤ)
    (hdefault : f.default = some text) (hspells : Spells text n) :
    (f.kind.cpp.isInteger = true →
      f.defaultExpression = .ok (toString n) ∧ Denotes (toString n) n) ∧
    (f.kind = .double ∨ f.kind = .float → |n| ≤ 2 ^ 53 →
      ∃ out value, f.defaultExpression = .ok out ∧ Denotes out value ∧ RoundsShort n value ∧
        (Denotes out n ↔ ∃ (m : ℤ) (k : ℕ), n = m * 10 ^ k ∧ |m| < 10 ^ 6)) := by
  constructor
  · intro hkind
    refine ⟨?_, (spells_toString n).denotes⟩
    rw [← integerDefault_eq hspells, Field.defaultExpression, hdefault]
    generalize f.kind = kind at hkind
    cases kind <;> first | exact absurd hkind Bool.false_ne_true | exact if_pos rfl
  · intro hkind hn
    obtain ⟨out, value, hout, hdenotes, hround⟩ := realDefault_spec hspells hn
    refine ⟨out, value, ?_, hdenotes, hround, ?_⟩
    · rw [← hout, Field.defaultExpression, hdefault]
      rcases hkind with hkind | hkind <;> rw [hkind]
    · rw [← sixDigits_iff, ← hround.eq_iff]
      constructor
      · exact fun h => hdenotes.unique h
      · rintro rfl
        exact hdenotes

/-- Six digits are not enough for the default 1234567 of a double precision field. -/
theorem value_of_numericDefault_sevenDigits :
    let f : Field :=
      { name := "d", fullName := "p.M.d", number := 1, kind := .double, label := .optional
        container := ⟨"m.proto", [0]⟩, typeName := "", target := .scalar
        default := some "1234567", annotations := [] }
    ∃ out value, f.defaultExpression = .ok out ∧ Denotes out value ∧ RoundsShort 1234567 value ∧
      ¬Denotes out 1234567 := by
  intro f
  have hspells : Spells "1234567" 1234567 := spells_toString 1234567
  obtain ⟨out, value, hout, hdenotes, hround, hiff⟩ :=
    (value_of_numericDefault f _ _ rfl hspells).2 (.inl rfl) (by decide)
  refine ⟨out, value, hout, hdenotes, by exact_mod_cast hround, ?_⟩
  intro h
  obtain ⟨m, k, hn, hm⟩ := hiff.1 (by exact_mod_cast h)
  rw [abs_lt] at hm
  cases k with
  | zero => omega
  | succ k =>
    -- The last digit is not a zero.
    rw [pow_succ, ← mul_assoc] at hn
    generalize m * 10 ^ k = j at hn
    omega

end FluentGen.Schema
