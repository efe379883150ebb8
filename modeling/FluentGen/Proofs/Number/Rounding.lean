import FluentGen.Number.Binary
import FluentGen.Proofs.Number.Reading
import Mathlib.Algebra.Order.Archimedean.Basic
import Mathlib.Algebra.Order.Field.Power
import Mathlib.Algebra.Order.Ring.Abs
import Mathlib.Algebra.Ring.Parity
import Mathlib.Tactic.FieldSimp
import Mathlib.Tactic.Linarith
import Mathlib.Tactic.NormNum
import Mathlib.Tactic.Positivity

/-!
Rounding of quotients of natural numbers, in rational numbers. The place of a quotient's first digit
is found from the places of the first digits of both numbers, up to one, and a comparison decides;
then the quotient is scaled so that the last digit that is kept stands for the ones.
-/

namespace FluentGen.Number

section Nearest

/-- Rounding leaves half a unit at most, and a number in the middle becomes even. -/
theorem roundQuotient_near (num : ℕ) {den : ℕ} (hden : 0 < den) :
    2 * |(num : ℤ) - roundQuotient num den * den| ≤ den ∧
      (2 * |(num : ℤ) - roundQuotient num den * den| = den → Even (roundQuotient num den)) := by
  have hnum : (num : ℤ) = (num / den : ℕ) * den + (num % den : ℕ) := by
    exact_mod_cast (Nat.div_add_mod' num den).symm
  have hrem : num % den < den := Nat.mod_lt num hden
  have hbelow : (num : ℤ) - (num / den : ℕ) * den = (num % den : ℕ) := by omega
  have habove : (num : ℤ) - (num / den + 1 : ℕ) * den = -((den : ℤ) - (num % den : ℕ)) := by
    push_cast at hnum ⊢
    linarith
  have hbelow' : |(num : ℤ) - (num / den : ℕ) * den| = (num % den : ℕ) := by
    rw [hbelow, abs_of_nonneg (by omega)]
  have habove' : |(num : ℤ) - (num / den + 1 : ℕ) * den| = (den : ℤ) - (num % den : ℕ) := by
    rw [habove, abs_neg, abs_of_nonneg (by omega)]
  unfold roundQuotient
  simp only
  split
  · rw [hbelow']
    exact ⟨by omega, by omega⟩
  split
  · rw [habove']
    exact ⟨by omega, by omega⟩
  split
  · next heven =>
    rw [hbelow']
    exact ⟨by omega, fun _ => Nat.even_iff.2 heven⟩
  · next hodd =>
    rw [habove']
    exact ⟨by omega, fun _ => Nat.even_add_one.2 fun h => hodd (Nat.even_iff.1 h)⟩

/-- The same for the quotient as a number. -/
theorem roundQuotient_spec (num : ℕ) {den : ℕ} (hden : 0 < den) :
    2 * |(num : ℚ) / den - roundQuotient num den| ≤ 1 ∧
      (2 * |(num : ℚ) / den - roundQuotient num den| = 1 → Even (roundQuotient num den)) := by
  obtain ⟨hnear, heven⟩ := roundQuotient_near num hden
  have hpos : (0 : ℚ) < den := by exact_mod_cast hden
  have hscale : 2 * |(num : ℚ) / den - roundQuotient num den| * den =
      ((2 * |(num : ℤ) - roundQuotient num den * den| : ℤ) : ℚ) := by
    push_cast
    rw [mul_assoc]
    nth_rewrite 2 [← abs_of_pos hpos]
    rw [← abs_mul, sub_mul, div_mul_cancel₀ _ hpos.ne']
  constructor
  · refine le_of_mul_le_mul_right ?_ hpos
    rw [hscale, one_mul]
    exact_mod_cast hnear
  · intro htie
    rw [htie, one_mul] at hscale
    exact heven (by exact_mod_cast hscale.symm)

/-- A whole quotient stays as it is. -/
theorem roundQuotient_of_eq_mul {num den q : ℕ} (hden : 0 < den) (h : num = q * den) :
    roundQuotient num den = q := by
  have hdiv : num / den = q := by rw [h, Nat.mul_div_cancel q hden]
  have hmod : num % den = 0 := by rw [h, Nat.mul_mod_left]
  simp only [roundQuotient, hdiv, hmod, Nat.mul_zero, if_pos hden]

end Nearest

section Places

variable {base : ℕ}

theorem scaled_den_pos (n : ℕ) (hbase : 0 < base) (e : ℤ) : 0 < (scaled n base e).2 := by
  cases e with
  | ofNat e => exact Nat.one_pos
  | negSucc e => exact Nat.pow_pos hbase

theorem scaled_num_pos {n : ℕ} (hn : 0 < n) (hbase : 0 < base) (e : ℤ) :
    0 < (scaled n base e).1 := by
  cases e with
  | ofNat e => exact Nat.mul_pos hn (Nat.pow_pos hbase)
  | negSucc e => exact hn

theorem scaled_eq (n base : ℕ) (e : ℤ) :
    ((scaled n base e).1 : ℚ) / (scaled n base e).2 = n * (base : ℚ) ^ e := by
  cases e with
  | ofNat e => simp [scaled, zpow_natCast]
  | negSucc e => simp [scaled, zpow_negSucc, div_eq_mul_inv]

/-- From the places of the first digits of both numbers, the place of a quotient's first digit. -/
def quotientPlace (num den base : ℕ) (guess : ℤ) : ℤ :=
  if (scaled num base (-guess)).1 < den * (scaled num base (-guess)).2 then guess - 1 else guess

variable {num den : ℕ} {p q : ℤ}

theorem quotientPlace_spec (hbase : 0 < base) (hden : 0 < den)
    (hnum : (base : ℚ) ^ p ≤ num ∧ (num : ℚ) < (base : ℚ) ^ (p + 1))
    (hden' : (base : ℚ) ^ q ≤ den ∧ (den : ℚ) < (base : ℚ) ^ (q + 1)) :
    (base : ℚ) ^ quotientPlace num den base (p - q) ≤ num / den ∧
      (num : ℚ) / den < (base : ℚ) ^ (quotientPlace num den base (p - q) + 1) := by
  have hb : (0 : ℚ) < base := by exact_mod_cast hbase
  have hd : (0 : ℚ) < den := by exact_mod_cast hden
  have hs : (0 : ℚ) < (scaled num base (-(p - q))).2 := by
    exact_mod_cast scaled_den_pos num hbase _
  have hpow : (0 : ℚ) < (base : ℚ) ^ (p - q) := zpow_pos hb _
  -- The comparison asks whether the quotient is below the guessed power.
  have hguess : (scaled num base (-(p - q))).1 < den * (scaled num base (-(p - q))).2 ↔
      (num : ℚ) / den < (base : ℚ) ^ (p - q) := by
    rw [div_lt_iff₀ hd, ← @Nat.cast_lt ℚ, Nat.cast_mul, ← div_lt_iff₀ hs, scaled_eq,
      zpow_neg, ← div_eq_mul_inv, div_lt_iff₀ hpow, mul_comm (den : ℚ)]
  have hlow : (base : ℚ) ^ (p - q - 1) ≤ num / den := by
    rw [le_div_iff₀ hd]
    calc (base : ℚ) ^ (p - q - 1) * den
        ≤ (base : ℚ) ^ (p - q - 1) * (base : ℚ) ^ (q + 1) :=
          mul_le_mul_of_nonneg_left hden'.2.le (zpow_pos hb _).le
      _ = (base : ℚ) ^ p := by
          rw [← zpow_add₀ hb.ne']
          congr 1
          ring
      _ ≤ num := hnum.1
  have hhigh : (num : ℚ) / den < (base : ℚ) ^ (p - q + 1) := by
    rw [div_lt_iff₀ hd]
    calc (num : ℚ) < (base : ℚ) ^ (p + 1) := hnum.2
      _ = (base : ℚ) ^ (p - q + 1) * (base : ℚ) ^ q := by
          rw [← zpow_add₀ hb.ne']
          congr 1
          ring
      _ ≤ (base : ℚ) ^ (p - q + 1) * den :=
          mul_le_mul_of_nonneg_left hden'.1 (zpow_pos hb _).le
  unfold quotientPlace
  split
  · next h =>
    rw [sub_add_cancel]
    exact ⟨hlow, hguess.1 h⟩
  · next h => exact ⟨not_lt.1 fun hlt => h (hguess.2 hlt), hhigh⟩

theorem decimalDigits_length_bounds {n : ℕ} (hn : 0 < n) :
    (10 : ℚ) ^ (((decimalDigits n).length : ℤ) - 1) ≤ n ∧
      (n : ℚ) < (10 : ℚ) ^ (((decimalDigits n).length : ℤ) - 1 + 1) := by
  obtain ⟨k, hk⟩ : ∃ k, (decimalDigits n).length = k + 1 :=
    Nat.exists_eq_add_one.2 (List.length_pos_iff.2 (decimalDigits_ne_nil n))
  have hlow : 10 ^ k ≤ n := (lt_length_decimalDigits_iff hn k).1 (by omega)
  have hhigh : n < 10 ^ (k + 1) :=
    not_le.1 fun hle => absurd ((lt_length_decimalDigits_iff hn (k + 1)).2 hle) (by omega)
  rw [hk, Nat.cast_succ, add_sub_cancel_right]
  exact ⟨by exact_mod_cast hlow, by exact_mod_cast hhigh⟩

theorem firstPlace_eq (num den : ℕ) : firstPlace num den =
    quotientPlace num den 10
      (((decimalDigits num).length : ℤ) - 1 - (((decimalDigits den).length : ℤ) - 1)) := by
  rw [sub_sub_sub_cancel_right]
  rfl

/-- The first digit of a positive quotient stands at its place. -/
theorem firstPlace_spec (hnum : 0 < num) (hden : 0 < den) :
    (10 : ℚ) ^ firstPlace num den ≤ num / den ∧
      (num : ℚ) / den < (10 : ℚ) ^ (firstPlace num den + 1) := by
  have hten : ((10 : ℕ) : ℚ) = 10 := rfl
  rw [firstPlace_eq, ← hten]
  exact quotientPlace_spec (Nat.succ_pos 9) hden (decimalDigits_length_bounds hnum)
    (decimalDigits_length_bounds hden)

end Places

section SixDigits

/-- Rounded to six decimal digits: the multiple of the unit in the sixth digit that is nearest, and
in the middle the even one. -/
inductive RoundsShort (x : ℚ) : ℚ → Prop where
  | zero (hx : x = 0) : RoundsShort x 0
  | nearest (place m : ℤ) (hlow : 10 ^ place ≤ |x|) (hhigh : |x| < 10 ^ (place + 1))
    (hnear : 2 * |x - m * 10 ^ (place - 5)| ≤ 10 ^ (place - 5))
    (heven : 2 * |x - m * 10 ^ (place - 5)| = 10 ^ (place - 5) → Even m) :
    RoundsShort x (m * 10 ^ (place - 5))

variable {x y value : ℚ}

theorem RoundsShort.neg (h : RoundsShort x value) : RoundsShort (-x) (-value) := by
  cases h with
  | zero hx =>
    rw [neg_zero]
    exact .zero (by rw [hx, neg_zero])
  | nearest place m hlow hhigh hnear heven =>
    have hdistance : |-x - (-m : ℤ) * 10 ^ (place - 5)| = |x - m * 10 ^ (place - 5)| := by
      rw [← abs_neg]
      congr 1
      push_cast
      ring
    rw [show -((m : ℚ) * 10 ^ (place - 5)) = (-m : ℤ) * 10 ^ (place - 5) by push_cast; ring]
    refine .nearest place (-m) (by rwa [abs_neg]) (by rwa [abs_neg]) ?_ ?_
    · rwa [hdistance]
    · rw [hdistance]
      exact fun htie => (heven htie).neg

theorem RoundsShort.signed (h : RoundsShort x value) (negative : Bool) :
    RoundsShort (signed negative x) (signed negative value) := by
  cases negative with
  | false => exact h
  | true => exact h.neg

/-- Rounding keeps exactly the numbers that have six digits at most. -/
theorem RoundsShort.eq_iff (h : RoundsShort x value) :
    value = x ↔ ∃ m k : ℤ, x = m * 10 ^ k ∧ |m| < 10 ^ 6 := by
  cases h with
  | zero hx => exact iff_of_true hx.symm ⟨0, 0, by simp [hx], by norm_num⟩
  | nearest place m hlow hhigh hnear _ =>
    have hunit : (0 : ℚ) < 10 ^ (place - 5) := by positivity
    constructor
    · intro hvalue
      refine ⟨m, place - 5, hvalue.symm, ?_⟩
      rw [← hvalue, abs_mul, abs_of_pos hunit, show place + 1 = 6 + (place - 5) by ring,
        zpow_add₀ (by norm_num)] at hhigh
      exact_mod_cast lt_of_mul_lt_mul_right hhigh hunit.le
    · rintro ⟨j, k, rfl, hj⟩
      -- A number of six digits is a multiple of the unit, because its first digit is not further
      -- than five places above its last one.
      have hk : place - 5 ≤ k := by
        have hj' : |(j : ℚ)| < 10 ^ (6 : ℤ) := by exact_mod_cast hj
        have hpow : (0 : ℚ) < 10 ^ k := by positivity
        have hlt : (10 : ℚ) ^ place < 10 ^ (6 + k) := by
          rw [zpow_add₀ (by norm_num)]
          rw [abs_mul, abs_of_pos hpow] at hlow
          exact hlow.trans_lt (mul_lt_mul_of_pos_right hj' hpow)
        have := (zpow_lt_zpow_iff_right₀ (by norm_num)).1 hlt
        omega
      obtain ⟨i, hi⟩ := Int.le.dest hk
      have hmultiple : (j : ℚ) * 10 ^ k = (j * 10 ^ i : ℤ) * 10 ^ (place - 5) := by
        rw [← hi, zpow_add₀ (by norm_num), zpow_natCast]
        push_cast
        ring
      rw [hmultiple, ← sub_mul, abs_mul, abs_of_pos hunit, ← mul_assoc] at hnear
      have hsmall : 2 * |((j * 10 ^ i - m : ℤ) : ℚ)| ≤ 1 := by
        refine le_of_mul_le_mul_right ?_ hunit
        rw [one_mul]
        exact_mod_cast hnear
      have hzero : |j * 10 ^ i - m| = 0 := by
        have : 2 * |j * 10 ^ i - m| ≤ 1 := by exact_mod_cast hsmall
        have := abs_nonneg (j * 10 ^ i - m)
        omega
      rw [hmultiple, sub_eq_zero.1 (abs_eq_zero.1 hzero)]

/-- Scaled to units of the sixth digit, rounding to six digits is rounding to an integer. -/
theorem roundsShort_of_scaled {place : ℤ} {m : ℕ} (hx : x = y * 10 ^ (place - 5))
    (hlow : 10 ^ place ≤ x) (hhigh : x < 10 ^ (place + 1)) (hnear : 2 * |y - m| ≤ 1)
    (heven : 2 * |y - m| = 1 → Even m) : RoundsShort x (m * 10 ^ (place - 5)) := by
  have hunit : (0 : ℚ) < 10 ^ (place - 5) := by positivity
  have hpos : (0 : ℚ) < x := lt_of_lt_of_le (by positivity) hlow
  have hdistance : 2 * |x - (m : ℤ) * 10 ^ (place - 5)| = 2 * |y - m| * 10 ^ (place - 5) := by
    rw [Int.cast_natCast, hx, ← sub_mul, abs_mul, abs_of_pos hunit, mul_assoc]
  refine .nearest place m (by rwa [abs_of_pos hpos]) (by rwa [abs_of_pos hpos]) ?_ ?_
  · rw [hdistance]
    exact mul_le_of_le_one_left hunit.le hnear
  · rw [hdistance]
    intro htie
    exact (Int.even_coe_nat m).2 (heven (mul_right_cancel₀ hunit.ne' (htie.trans (one_mul _).symm)))

/-- Rounding to an integer does not pass an integer. -/
theorem bounds_of_near {a b m : ℕ} (hnear : 2 * |y - m| ≤ 1) (hlow : (a : ℚ) ≤ y)
    (hhigh : y < (b : ℚ)) : a ≤ m ∧ m ≤ b := by
  obtain ⟨habove, hbelow⟩ := abs_le.1 (show |y - m| ≤ 1 / 2 by linarith)
  have ha : (a : ℚ) < m + 1 := by linarith
  have hb : (m : ℚ) < b + 1 := by linarith
  exact ⟨Nat.lt_succ_iff.1 (by exact_mod_cast ha), Nat.lt_succ_iff.1 (by exact_mod_cast hb)⟩

/-- In units of the sixth digit a number has six digits in front of the point. -/
theorem sixDigits_of_scaled {place : ℤ} (hx : x = y * 10 ^ (place - 5)) (hlow : 10 ^ place ≤ x)
    (hhigh : x < 10 ^ (place + 1)) : ((10 ^ 5 : ℕ) : ℚ) ≤ y ∧ y < ((10 ^ 6 : ℕ) : ℚ) := by
  have hunit : (0 : ℚ) < 10 ^ (place - 5) := by positivity
  have hscale : ∀ k : ℕ, ((10 ^ k : ℕ) : ℚ) * 10 ^ (place - 5) = 10 ^ (k + (place - 5)) := by
    intro k
    rw [Nat.cast_pow, ← zpow_natCast, Nat.cast_ofNat, ← zpow_add₀ (by norm_num)]
  constructor
  · refine le_of_mul_le_mul_right ?_ hunit
    rw [hscale, ← hx, show ((5 : ℕ) : ℤ) + (place - 5) = place by push_cast; ring]
    exact hlow
  · refine lt_of_mul_lt_mul_right ?_ hunit.le
    rw [hscale, ← hx, show ((6 : ℕ) : ℤ) + (place - 5) = place + 1 by push_cast; ring]
    exact hhigh

/-- A quotient in units of the sixth digit, as the quotient that is rounded. -/
theorem quotient_eq_scaled (num den : ℕ) (place : ℤ) :
    (num : ℚ) / den = ((scaled num 10 (5 - place)).1 : ℚ) /
      (den * (scaled num 10 (5 - place)).2 : ℕ) * 10 ^ (place - 5) := by
  have hvalue : ((scaled num 10 (5 - place)).1 : ℚ) / (scaled num 10 (5 - place)).2 =
      num * 10 ^ (5 - place) := scaled_eq num 10 _
  rw [Nat.cast_mul, mul_comm (den : ℚ), ← div_div, hvalue, div_mul_eq_mul_div, mul_assoc,
    ← zpow_add₀ (by norm_num), show 5 - place + (place - 5) = 0 by ring, zpow_zero, mul_one]

/-- The leading digits are those of a positive quotient rounded to six digits. -/
theorem leadingDigits_spec {num den : ℕ} (hnum : 0 < num) (hden : 0 < den) :
    ∃ (m : ℕ) (place : ℤ), leadingDigits num den = (decimalDigits m, place) ∧
      10 ^ 5 ≤ m ∧ m < 10 ^ 6 ∧ RoundsShort (num / den) (m * 10 ^ (place - 5)) := by
  obtain ⟨hlow, hhigh⟩ := firstPlace_spec hnum hden
  set place := firstPlace num den with hplace
  set fraction := scaled num 10 (5 - place) with hfraction
  have hpos : 0 < fraction.2 := scaled_den_pos num (by norm_num) _
  obtain ⟨hnear, heven⟩ := roundQuotient_spec fraction.1 (Nat.mul_pos hden hpos)
  set m := roundQuotient fraction.1 (den * fraction.2) with hm
  have hscaled : (num : ℚ) / den = _ := quotient_eq_scaled num den place
  have hround : RoundsShort (num / den) (m * 10 ^ (place - 5)) :=
    roundsShort_of_scaled hscaled hlow hhigh hnear heven
  obtain ⟨hylow, hyhigh⟩ := sixDigits_of_scaled hscaled hlow hhigh
  obtain ⟨hmlow, hmhigh⟩ : 10 ^ 5 ≤ m ∧ m ≤ 10 ^ 6 := bounds_of_near hnear hylow hyhigh
  have hleading : leadingDigits num den =
      if m = 10 ^ 6 then (decimalDigits (10 ^ 5), place + 1) else (decimalDigits m, place) := rfl
  rw [hleading]
  split
  · next hcarry =>
    refine ⟨10 ^ 5, place + 1, rfl, le_rfl, by norm_num, ?_⟩
    rw [hcarry] at hround
    convert hround using 1
    rw [show place + 1 - 5 = 1 + (place - 5) by ring, zpow_add₀ (by norm_num)]
    push_cast
    ring
  · next hcarry => exact ⟨m, place, rfl, hmlow, lt_of_le_of_ne hmhigh hcarry, hround⟩

end SixDigits

namespace Binary

/-- A value that the binary places can hold is kept. -/
theorem ofQuotient_of_eq {num den m : ℕ} (negative : Bool) (hden : 0 < den)
    (hvalue : (num : ℚ) / den = m * 2 ^ lastPlace num den) (hsmall : lastPlace num den ≤ 970) :
    ofQuotient negative num den = .finite negative m (lastPlace num den) := by
  have hpos := scaled_den_pos num two_pos (-lastPlace num den)
  have hscaled := scaled_eq num 2 (-lastPlace num den)
  set fraction := scaled num 2 (-lastPlace num den) with hfraction
  have hround : roundQuotient fraction.1 (den * fraction.2) = m := by
    refine roundQuotient_of_eq_mul (Nat.mul_pos hden hpos) ?_
    have hd : (den : ℚ) ≠ 0 := by exact_mod_cast hden.ne'
    have hf : (fraction.2 : ℚ) ≠ 0 := by exact_mod_cast hpos.ne'
    rw [zpow_neg, div_eq_iff hf, (div_eq_iff hd).1 hvalue] at hscaled
    have hpow : ((2 : ℕ) : ℚ) ^ lastPlace num den ≠ 0 := by positivity
    have : (fraction.1 : ℚ) = m * (den * fraction.2) := by
      rw [hscaled]
      push_cast at hpow ⊢
      field_simp
    exact_mod_cast this
  have hquotient : ofQuotient negative num den =
      if 971 < lastPlace num den ∨ (lastPlace num den = 971 ∧ Nat.pow 2 53 ≤ m)
      then .infinite negative else .finite negative m (lastPlace num den) := by
    rw [← hround]
    rfl
  rw [hquotient, if_neg (by omega)]

variable {n : ℕ}

theorem ofDecimal_eq_ofQuotient (negative : Bool) (hpos : 0 < n) (hn : n ≤ 2 ^ 53) :
    ofDecimal (.finite negative n 0) = ofQuotient negative n 1 := by
  have hlength : ¬16 < (decimalDigits n).length := by
    rw [lt_length_decimalDigits_iff hpos, not_le]
    exact hn.trans_lt (by norm_num)
  have hone : scaled n 10 0 = (n, 1) := by simp [scaled]
  simp only [ofDecimal, hone]
  rw [if_neg (by simp only [Int.ofNat_eq_natCast]; omega),
    if_neg (by simp only [Int.ofNat_eq_natCast]; omega)]

/-- The last place of an integer is 52 below that of its first binary digit. -/
theorem lastPlace_natural (hpos : 0 < n) (hn : n ≤ 2 ^ 53) :
    ∃ top : ℤ, lastPlace n 1 = top - 52 ∧ top ≤ 53 ∧ (2 : ℚ) ^ top ≤ n := by
  have hlog : ((2 : ℕ) : ℚ) ^ (n.log2 : ℤ) ≤ n ∧
      (n : ℚ) < ((2 : ℕ) : ℚ) ^ ((n.log2 : ℤ) + 1) := by
    constructor
    · exact_mod_cast Nat.log2_self_le hpos.ne'
    · exact_mod_cast Nat.lt_log2_self
  have hone : ((2 : ℕ) : ℚ) ^ (0 : ℤ) ≤ (1 : ℕ) ∧
      ((1 : ℕ) : ℚ) < ((2 : ℕ) : ℚ) ^ ((0 : ℤ) + 1) := by
    norm_num
  obtain ⟨hlow, hhigh⟩ := quotientPlace_spec two_pos one_pos hlog hone
  set top := quotientPlace n 1 2 (n.log2 - 0) with htop
  have hlast : lastPlace n 1 = max (top - 52) (-1074) := rfl
  rw [Nat.cast_one, div_one] at hlow hhigh
  have hfrom : 0 ≤ top := by
    have hlt : ((2 : ℕ) : ℚ) ^ (0 : ℤ) < ((2 : ℕ) : ℚ) ^ (top + 1) :=
      lt_of_le_of_lt (by exact_mod_cast hpos) hhigh
    have := (zpow_lt_zpow_iff_right₀ (by norm_num)).1 hlt
    omega
  have hto : top ≤ 53 := by
    have hle : ((2 : ℕ) : ℚ) ^ top ≤ ((2 : ℕ) : ℚ) ^ (53 : ℤ) := hlow.trans (by exact_mod_cast hn)
    exact (zpow_le_zpow_iff_right₀ (by norm_num)).1 hle
  exact ⟨top, by omega, hto, hlow⟩

/-- An integer of up to 53 binary digits is kept. -/
theorem ofDecimal_natural (negative : Bool) (hn : n ≤ 2 ^ 53) :
    ∃ m e, ofDecimal (.finite negative n 0) = .finite negative m e ∧ (m : ℚ) * 2 ^ e = n := by
  rcases Nat.eq_zero_or_pos n with rfl | hpos
  · exact ⟨0, 0, rfl, by simp⟩
  obtain ⟨top, hlast, hto, hlow⟩ := lastPlace_natural hpos hn
  obtain ⟨m, hm⟩ : ∃ m : ℕ, (n : ℚ) = m * 2 ^ (top - 52) := by
    rcases le_or_gt top 52 with hle | hgt
    · obtain ⟨k, hk⟩ := Int.le.dest hle
      refine ⟨n * 2 ^ k, ?_⟩
      rw [show top - 52 = -(k : ℤ) by omega, zpow_neg, zpow_natCast]
      push_cast
      field_simp
    · -- Only the power itself has 54 binary digits.
      have htop : top = 53 := by omega
      rw [htop] at hlow
      have hpower : n = 2 ^ 53 := le_antisymm hn (by exact_mod_cast hlow)
      exact ⟨2 ^ 52, by rw [htop, hpower]; norm_num⟩
  refine ⟨m, top - 52, ?_, hm.symm⟩
  rw [ofDecimal_eq_ofQuotient negative hpos hn, ← hlast]
  exact ofQuotient_of_eq negative one_pos (by rw [hlast, Nat.cast_one, div_one, hm]) (by omega)

end Binary

end FluentGen.Number
