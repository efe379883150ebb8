import FluentGen.Proofs.Number.Rounding
import Mathlib.Data.List.DropRight

/-!
The short form of a double precision value denotes the value rounded to six digits. The three
layouts differ in where the point stands among the digits; each has its value because zeros at the
end of a fraction do not count.
-/

namespace FluentGen.Number

section Digits

theorem AllDigits.append {digits others : List Char} (hdigits : AllDigits digits)
    (hothers : AllDigits others) : AllDigits (digits ++ others) := by
  intro c hc
  exact (List.mem_append.1 hc).elim (hdigits c) (hothers c)

theorem AllDigits.sublist {digits others : List Char} (h : AllDigits digits)
    (hsub : others.Sublist digits) : AllDigits others :=
  fun c hc => h c (hsub.subset hc)

theorem allDigits_replicate_zero (k : ℕ) : AllDigits (List.replicate k '0') := by
  intro c hc
  rw [List.eq_of_mem_replicate hc]
  rfl

/-- Zeros in front of digits do not count. -/
theorem ofDigitChars_replicate_append (k : ℕ) (digits : List Char) :
    Nat.ofDigitChars 10 (List.replicate k '0' ++ digits) 0 = Nat.ofDigitChars 10 digits 0 := by
  rw [Nat.ofDigitChars_append, Nat.ofDigitChars_replicate_zero, Nat.mul_zero]

end Digits

section Parts

variable {whole digits exponent : List Char} {e : ℤ}

/-- A fraction is the digits without the zeros at their end. -/
theorem fraction_eq_pointed (digits : List Char) :
    ∃ kept k, fraction digits = pointed kept ∧ digits = kept ++ List.replicate k '0' := by
  refine ⟨digits.rdropWhile (· = '0'), (digits.rtakeWhile (· = '0')).length, ?_, ?_⟩
  · change fraction digits = pointed (digits.reverse.dropWhile (· = '0')).reverse
    unfold fraction pointed
    rfl
  · have hzeros : ∀ c ∈ digits.rtakeWhile (· = '0'), c = '0' :=
      fun c hc => by simpa using List.mem_rtakeWhile_imp hc
    rw [← List.eq_replicate_of_mem hzeros, List.rdropWhile_append_rtakeWhile]

/-- A number written with a fraction has the value of all its digits, the dropped zeros too. -/
theorem unsigned_fraction (hne : whole ≠ []) (hwhole : AllDigits whole) (hdigits : AllDigits digits)
    (hexponent : IsExponent exponent e) :
    Unsigned (whole ++ (fraction digits ++ exponent))
      ((Nat.ofDigitChars 10 (whole ++ digits) 0 : ℚ) * 10 ^ (e - digits.length)) := by
  obtain ⟨kept, k, hfraction, rfl⟩ := fraction_eq_pointed digits
  have hkept : AllDigits kept := hdigits.sublist (List.sublist_append_left _ _)
  have hvalue : ((Nat.ofDigitChars 10 (whole ++ (kept ++ List.replicate k '0')) 0 : ℕ) : ℚ) *
      10 ^ (e - (kept ++ List.replicate k '0').length) =
      (Nat.ofDigitChars 10 (whole ++ kept) 0 : ℚ) * 10 ^ (e - kept.length) := by
    rw [← List.append_assoc, Nat.ofDigitChars_append, Nat.ofDigitChars_replicate_zero,
      List.length_append, List.length_replicate]
    push_cast
    rw [mul_comm ((10 : ℚ) ^ k), mul_assoc, ← zpow_natCast, ← zpow_add₀ (by norm_num)]
    congr 2
    ring
  rw [hfraction, hvalue]
  exact .intro hne hwhole hkept hexponent

/-- The exponent is written with a sign, and with a zero in front of a single digit. -/
theorem isExponent_exponentText (place : ℤ) : IsExponent (exponentText place) place := by
  obtain ⟨padded, hpadded, hne, hdigits, hvalue⟩ : ∃ padded,
      exponentText place = 'e' :: (if decide (place < 0) then '-' else '+') :: padded ∧
      padded ≠ [] ∧ AllDigits padded ∧ Nat.ofDigitChars 10 padded 0 = place.natAbs := by
    have hdigits := allDigits_decimalDigits place.natAbs
    refine ⟨_, by simp only [exponentText, decide_eq_true_eq]; rfl, ?_⟩
    split
    · exact ⟨List.cons_ne_nil _ _, (allDigits_replicate_zero 1).append hdigits,
        (ofDigitChars_replicate_append 1 _).trans (ofDigitChars_decimalDigits _)⟩
    · exact ⟨decimalDigits_ne_nil _, hdigits, ofDigitChars_decimalDigits _⟩
  have hplace : signed (decide (place < 0)) (Nat.ofDigitChars 10 padded 0 : ℤ) = place := by
    rw [hvalue, signed]
    split
    · next hneg =>
      have := of_decide_eq_true hneg
      omega
    · next hpos =>
      have := of_decide_eq_false (Bool.eq_false_iff.2 hpos)
      omega
  have hexponent := IsExponent.some (decide (place < 0)) hne hdigits
  rwa [hplace, ← hpadded] at hexponent

end Parts

/-- Six digits have their value in each of the three layouts. -/
theorem unsigned_shortForm {m : ℕ} (hlow : 10 ^ 5 ≤ m) (hhigh : m < 10 ^ 6) (place : ℤ) :
    Unsigned (shortForm (decimalDigits m) place) (m * 10 ^ (place - 5)) := by
  have hlength : (decimalDigits m).length = 6 := by
    have hfive := (lt_length_decimalDigits_iff (by omega) 5).2 hlow
    have hsix := mt (lt_length_decimalDigits_iff (by omega) 6).1 (not_le.2 hhigh)
    omega
  have hdigits := allDigits_decimalDigits m
  have hvalue := ofDigitChars_decimalDigits m
  generalize decimalDigits m = digits at hlength hdigits hvalue
  subst hvalue
  -- The point stands behind a part of the digits in the first and the last layout.
  have hcut : ∀ k < 6, ∀ {exponent : List Char} {e : ℤ}, IsExponent exponent e →
      Unsigned (digits.take (k + 1) ++ (fraction (digits.drop (k + 1)) ++ exponent))
        ((Nat.ofDigitChars 10 digits 0 : ℚ) * 10 ^ (e - (5 - k))) := by
    intro k hk exponent e hexponent
    have hne : digits.take (k + 1) ≠ [] := by
      rw [← List.length_pos_iff, List.length_take]
      omega
    have h := unsigned_fraction hne (hdigits.sublist (List.take_sublist (k + 1) digits))
      (hdigits.sublist (List.drop_sublist (k + 1) digits)) hexponent
    rwa [List.take_append_drop, List.length_drop, hlength,
      show ((6 - (k + 1) : ℕ) : ℤ) = 5 - k by omega] at h
  unfold shortForm
  split
  · next hplace =>
    obtain ⟨hfrom, hbelow⟩ := hplace
    cases place with
    | ofNat p =>
      have h := hcut p (Int.ofNat_lt.1 hbelow) .none
      rwa [List.append_nil, show (0 : ℤ) - (5 - p) = Int.ofNat p - 5 by
        rw [Int.ofNat_eq_natCast]; ring] at h
    | negSucc p =>
      have h : Unsigned (List.replicate 1 '0' ++
          (fraction (List.replicate p '0' ++ digits) ++ [])) _ :=
        unsigned_fraction (List.cons_ne_nil _ _) (allDigits_replicate_zero 1)
          ((allDigits_replicate_zero p).append hdigits) .none
      rw [ofDigitChars_replicate_append, ofDigitChars_replicate_append, List.append_nil,
        List.length_append, List.length_replicate, hlength] at h
      rwa [show Int.negSucc p - 5 = 0 - ((p + 6 : ℕ) : ℤ) by omega]
  · have h := hcut 0 (by omega) (isExponent_exponentText place)
    rw [List.append_assoc]
    simpa using h

/-- The short form denotes the value rounded to six digits. -/
theorem denotes_shortText (negative : Bool) (significand : ℕ) (e : ℤ) :
    ∃ value, Denotes (shortText (.finite negative significand e)) (signed negative value) ∧
      RoundsShort (significand * 2 ^ e) value := by
  have hsign : IsSign (if negative then ['-'] else []) negative := by
    cases negative with
    | false => exact .none
    | true => exact .minus
  rcases Nat.eq_zero_or_pos significand with rfl | hpos
  · have hzero : Unsigned ['0'] 0 := by
      have h := Unsigned.intro (List.cons_ne_nil '0' []) (allDigits_replicate_zero 1)
        (allDigits_replicate_zero 0) .none
      simpa [pointed, Nat.ofDigitChars_cons] using h
    refine ⟨0, .intro ?_ hsign hzero, .zero (by simp)⟩
    exact String.toList_ofList
  · have hden := scaled_den_pos significand two_pos e
    have hvalue := scaled_eq significand 2 e
    obtain ⟨m, place, hleading, hlow, hhigh, hround⟩ :=
      leadingDigits_spec (scaled_num_pos hpos two_pos e) hden
    rw [hvalue] at hround
    refine ⟨_, .intro ?_ hsign (unsigned_shortForm hlow hhigh place), hround⟩
    rw [shortText, if_neg hpos.ne']
    simp only [hleading, String.toList_ofList]

end FluentGen.Number
