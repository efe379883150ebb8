import FluentGen.Number.Decimal
import Mathlib.Data.Rat.Defs
import Mathlib.Tactic.Ring

/-!
What a number in decimal denotes, and that it is read as that. A number is written as a sign,
digits in front of a point, digits behind it and an exponent of ten, where all but the first digits
may be missing; an integer has only a sign and digits.
-/

namespace FluentGen.Number

/-- ASCII digits only. -/
def AllDigits (text : List Char) : Prop :=
  ∀ c ∈ text, c.isDigit = true

/-- A sign in front of a number, and whether it is a minus. -/
inductive IsSign : List Char → Bool → Prop where
  | none : IsSign [] false
  | plus : IsSign ['+'] false
  | minus : IsSign ['-'] true

/-- A number of the given sign and magnitude. -/
def signed {R : Type} [Neg R] (negative : Bool) (magnitude : R) : R :=
  if negative then -magnitude else magnitude

/-- An integer in decimal: a sign or none, and at least one digit. -/
inductive Spells : String → ℤ → Prop where
  | intro {text : String} {sign digits : List Char} {negative : Bool}
    (htext : text.toList = sign ++ digits) (hsign : IsSign sign negative)
    (hne : digits ≠ []) (hdigits : AllDigits digits) :
    Spells text (signed negative (Nat.ofDigitChars 10 digits 0 : ℤ))

/-- Digits behind a point; without any there is no point. -/
def pointed : List Char → List Char
  | [] => []
  | digits => '.' :: digits

/-- The exponent part of a number: nothing, or a letter, a sign and at least one digit. -/
inductive IsExponent : List Char → ℤ → Prop where
  | none : IsExponent [] 0
  | some (negative : Bool) {digits : List Char} (hne : digits ≠ []) (hdigits : AllDigits digits) :
    IsExponent ('e' :: (if negative then '-' else '+') :: digits)
      (signed negative (Nat.ofDigitChars 10 digits 0 : ℤ))

/-- A decimal number without sign and its value. -/
inductive Unsigned : List Char → ℚ → Prop where
  | intro {whole fraction exponent : List Char} {e : ℤ} (hne : whole ≠ [])
    (hwhole : AllDigits whole) (hfraction : AllDigits fraction)
    (hexponent : IsExponent exponent e) :
    Unsigned (whole ++ (pointed fraction ++ exponent))
      ((Nat.ofDigitChars 10 (whole ++ fraction) 0 : ℚ) * 10 ^ (e - fraction.length))

/-- A decimal number and its value. -/
inductive Denotes : String → ℚ → Prop where
  | intro {text : String} {sign chars : List Char} {negative : Bool} {magnitude : ℚ}
    (htext : text.toList = sign ++ chars) (hsign : IsSign sign negative)
    (hchars : Unsigned chars magnitude) : Denotes text (signed negative magnitude)

/-- The value of a number that was read, if it is finite. -/
def Decimal.value? : Decimal → Option ℚ
  | .finite negative digits exponent => some (signed negative ((digits : ℚ) * 10 ^ exponent))
  | _ => none

section Cleaning

/-- The characters of decimal numbers. -/
def IsNumeral (c : Char) : Prop :=
  c.isDigit = true ∨ c ∈ ['+', '-', '.', 'e']

theorem AllDigits.isNumeral {text : List Char} (h : AllDigits text) : ∀ c ∈ text, IsNumeral c :=
  fun c hc => .inl (h c hc)

theorem toNat_of_isDigit {c : Char} (h : c.isDigit = true) : 48 ≤ c.toNat ∧ c.toNat ≤ 57 := by
  simp only [Char.isDigit, Bool.and_eq_true, decide_eq_true_eq] at h
  exact ⟨h.1, h.2⟩

theorem IsNumeral.not_blank {c : Char} (h : IsNumeral c) : isNumberBlank c = false := by
  rcases h with hdigit | hother
  · obtain ⟨hlow, hhigh⟩ := toNat_of_isDigit hdigit
    have hspace : c ≠ ' ' := by
      rintro rfl
      exact absurd hlow (by decide)
    simp only [isNumberBlank, Text.isWideBlank, hspace, decide_false, Bool.or_false,
      Bool.or_eq_false_iff, Bool.and_eq_false_iff, decide_eq_false_iff_not, beq_eq_false_iff_ne]
    omega
  · simp only [List.mem_cons, List.not_mem_nil, or_false] at hother
    rcases hother with rfl | rfl | rfl | rfl <;> decide

theorem IsNumeral.plain {c : Char} (h : IsNumeral c) :
    (match Text.decimalValue? c with
    | some d => Char.ofNat (48 + d)
    | none => c) = c := by
  rcases h with hdigit | hother
  · obtain ⟨hlow, hhigh⟩ := toNat_of_isDigit hdigit
    have hvalue : Text.decimalValue? c = some (c.toNat - 48) := by
      rw [Text.decimalValue?, if_pos (by omega), if_pos hdigit]
    simp only [hvalue]
    rw [show 48 + (c.toNat - 48) = c.toNat by omega]
    exact Char.ofNat_toNat c
  · simp only [List.mem_cons, List.not_mem_nil, or_false] at hother
    rcases hother with rfl | rfl | rfl | rfl <;> decide

theorem IsNumeral.ne_underscore {c : Char} (h : IsNumeral c) : c ≠ '_' := by
  rintro rfl
  exact absurd h (by unfold IsNumeral; decide)

variable {text : List Char}

theorem trim_of_isNumeral (h : ∀ c ∈ text, IsNumeral c) : trim text = text := by
  have hkept : ∀ chars : List Char, (∀ c ∈ chars, IsNumeral c) →
      chars.dropWhile isNumberBlank = chars := by
    intro chars hchars
    cases chars with
    | nil => rfl
    | cons c rest =>
      exact List.dropWhile_cons_of_neg (by simp [(hchars c List.mem_cons_self).not_blank])
  rw [trim, Text.trimBy, hkept text h, hkept _ (fun c hc => h c (List.mem_reverse.1 hc)), List.reverse_reverse]

theorem plainDigits_of_isNumeral (h : ∀ c ∈ text, IsNumeral c) : plainDigits text = text :=
  (List.map_congr_left fun c hc => (h c hc).plain).trans (List.map_id text)

theorem dropUnderscores_of_isNumeral (h : ∀ c ∈ text, IsNumeral c) {previous : Option Char}
    (hprevious : previous ≠ some '_') : dropUnderscores previous text = some text := by
  induction text generalizing previous with
  | nil => rw [dropUnderscores, if_neg hprevious]
  | cons c rest ih =>
    have hc : c ≠ '_' := (h c List.mem_cons_self).ne_underscore
    rw [dropUnderscores, if_neg hc, if_neg (by simp [hprevious]),
      ih (fun d hd => h d (List.mem_cons_of_mem c hd)) (by simpa using hc)]
    rfl

/-- A text in the characters of decimal numbers is taken as it stands. -/
theorem cleaned_of_isNumeral (h : ∀ c ∈ text, IsNumeral c) :
    dropUnderscores none (plainDigits (trim text)) = some text := by
  rw [trim_of_isNumeral h, plainDigits_of_isNumeral h]
  exact dropUnderscores_of_isNumeral h nofun

end Cleaning

section Parts

variable {sign digits rest exponent : List Char} {negative : Bool} {e : ℤ}

theorem IsSign.isNumeral (h : IsSign sign negative) : ∀ c ∈ sign, IsNumeral c := by
  cases h <;> simp [IsNumeral]

theorem splitSign_append (h : IsSign sign negative) {c : Char} (hc : c.isDigit = true) :
    splitSign (sign ++ c :: rest) = (negative, c :: rest) := by
  cases h with
  | plus => rfl
  | minus => rfl
  | none =>
    unfold splitSign
    split
    · next heq =>
      cases heq
      exact absurd hc (by decide)
    · next heq =>
      cases heq
      exact absurd hc (by decide)
    · rfl

theorem digitRun_append (hdigits : AllDigits digits)
    (hrest : ∀ c ∈ rest.head?, c.isDigit = false) :
    Decimal.digitRun (digits ++ rest) = (digits, rest) := by
  have htake : rest.takeWhile Char.isDigit = [] ∧ rest.dropWhile Char.isDigit = rest := by
    cases rest with
    | nil => exact ⟨rfl, rfl⟩
    | cons c rest =>
      have hc : c.isDigit = false := hrest c rfl
      exact ⟨List.takeWhile_cons_of_neg (by simp [hc]), List.dropWhile_cons_of_neg (by simp [hc])⟩
  rw [Decimal.digitRun, List.takeWhile_append_of_pos hdigits, List.dropWhile_append_of_pos hdigits,
    htake.1, htake.2, List.append_nil]

theorem natural?_of_allDigits (hne : digits ≠ []) (hdigits : AllDigits digits) :
    natural? digits = some (Nat.ofDigitChars 10 digits 0) := by
  have hall : digits.all Char.isDigit = true := List.all_eq_true.2 hdigits
  have hempty : digits.isEmpty = false := by simpa using hne
  rw [natural?, hall, hempty]
  rfl

theorem IsExponent.read (h : IsExponent exponent e) :
    Decimal.exponent? exponent = Option.some e := by
  cases h with
  | none => rfl
  | some negative hne hdigits =>
    cases negative <;>
      simp [Decimal.exponent?, splitSign, signed, natural?_of_allDigits hne hdigits]

theorem IsExponent.isNumeral (h : IsExponent exponent e) : ∀ c ∈ exponent, IsNumeral c := by
  cases h with
  | none => exact nofun
  | some negative _ hdigits =>
    intro c hc
    rcases List.mem_cons.1 hc with rfl | hc
    · exact .inr (by decide)
    rcases List.mem_cons.1 hc with rfl | hc
    · cases negative <;> exact .inr (by decide)
    · exact .inl (hdigits c hc)

theorem IsExponent.head_eq (h : IsExponent exponent e) : ∀ c ∈ exponent.head?, c = 'e' := by
  cases h <;> simp

theorem AllDigits.pointed_isNumeral (h : AllDigits digits) : ∀ c ∈ pointed digits, IsNumeral c := by
  cases digits with
  | nil => exact nofun
  | cons d digits =>
    intro c hc
    rcases List.mem_cons.1 hc with rfl | hc
    · exact .inr (by decide)
    · exact h.isNumeral c hc

/-- A text that begins with a digit is none of the words for what is no finite number. -/
theorem special?_of_digit {c : Char} (hc : c.isDigit = true) :
    Decimal.special? negative (c :: rest) = none := by
  obtain ⟨hlow, hhigh⟩ := toNat_of_isDigit hc
  have hlower : c.toLower = c := by
    refine dif_neg ?_
    intro hupper
    have hcode : 65 ≤ c.toNat := hupper.1
    omega
  have hword : ∀ word : String, (∃ first ∈ word.toList.head?, 57 < first.toNat) →
      (String.ofList ((c :: rest).map Char.toLower) == word) = false := by
    rintro word ⟨first, hfirst, hlarge⟩
    rw [beq_eq_false_iff_ne]
    rintro rfl
    rw [String.toList_ofList, List.map_cons, hlower] at hfirst
    cases hfirst
    omega
  have hinf := hword "inf" ⟨'i', rfl, by decide⟩
  have hinfinity := hword "infinity" ⟨'i', rfl, by decide⟩
  have hnan := hword "nan" ⟨'n', rfl, by decide⟩
  simp only [Decimal.special?, hinf, hinfinity, hnan]
  rfl

end Parts

/-- The parts of an unsigned number are read one behind the other. -/
theorem unsigned?_append {whole fraction exponent : List Char} {negative : Bool} {e : ℤ}
    (hne : whole ≠ []) (hwhole : AllDigits whole) (hfraction : AllDigits fraction)
    (hexponent : IsExponent exponent e) :
    Decimal.unsigned? negative (whole ++ (pointed fraction ++ exponent)) =
      some (.finite negative (Nat.ofDigitChars 10 (whole ++ fraction) 0)
        (e - fraction.length)) := by
  have hletter : ∀ c ∈ exponent.head?, c.isDigit = false := by
    intro c hc
    rw [hexponent.head_eq c hc]
    rfl
  have hempty : whole.isEmpty = false := by simpa using hne
  cases fraction with
  | nil =>
    have hpoint : ∀ rest, exponent ≠ '.' :: rest := by
      rintro rest rfl
      exact absurd (hexponent.head_eq '.' rfl) (by decide)
    have hrun : Decimal.digitRun (whole ++ exponent) = (whole, exponent) :=
      digitRun_append hwhole hletter
    simp only [Decimal.unsigned?, pointed, List.nil_append, hrun, hempty, hexponent.read,
      Bool.false_and, Bool.false_eq_true, if_false]
    rfl
  | cons d fraction =>
    have hrun : Decimal.digitRun (whole ++ ('.' :: (d :: fraction) ++ exponent)) =
        (whole, '.' :: ((d :: fraction) ++ exponent)) := by
      refine digitRun_append hwhole fun c hc => ?_
      cases hc
      rfl
    have hbehind : Decimal.digitRun ((d :: fraction) ++ exponent) = (d :: fraction, exponent) :=
      digitRun_append hfraction hletter
    simp only [Decimal.unsigned?, pointed, hrun, hbehind, hempty, hexponent.read,
      Bool.false_and, Bool.false_eq_true, if_false]
    rfl

theorem Unsigned.isNumeral {chars : List Char} {x : ℚ} (h : Unsigned chars x) :
    ∀ c ∈ chars, IsNumeral c := by
  obtain ⟨-, hwhole, hfraction, hexponent⟩ := h
  intro c hc
  rcases List.mem_append.1 hc with hc | hc
  · exact hwhole.isNumeral c hc
  rcases List.mem_append.1 hc with hc | hc
  · exact hfraction.pointed_isNumeral c hc
  · exact hexponent.isNumeral c hc

/-- Behind the sign a number is taken as it stands. -/
theorem splitSign_of_numeral {text : String} {sign chars : List Char} {negative : Bool}
    (htext : text.toList = sign ++ chars) (hsign : IsSign sign negative)
    (hchars : ∀ c ∈ chars, IsNumeral c) (hfirst : ∃ d rest, chars = d :: rest ∧ d.isDigit = true) :
    dropUnderscores none (plainDigits (trim text.toList)) = some text.toList ∧
      splitSign text.toList = (negative, chars) := by
  obtain ⟨d, rest, rfl, hd⟩ := hfirst
  rw [htext]
  refine ⟨cleaned_of_isNumeral fun c hc => ?_, splitSign_append hsign hd⟩
  rcases List.mem_append.1 hc with hc | hc
  · exact hsign.isNumeral c hc
  · exact hchars c hc

theorem AllDigits.exists_cons {digits : List Char} (hdigits : AllDigits digits) (hne : digits ≠ [])
    (behind : List Char) : ∃ d rest, digits ++ behind = d :: rest ∧ d.isDigit = true := by
  obtain ⟨d, rest, rfl⟩ := List.exists_cons_of_ne_nil hne
  exact ⟨d, rest ++ behind, rfl, hdigits d List.mem_cons_self⟩

theorem Decimal.read?_eq {text : String} {sign chars : List Char} {negative : Bool}
    (htext : text.toList = sign ++ chars) (hsign : IsSign sign negative)
    (hchars : ∀ c ∈ chars, IsNumeral c) (hfirst : ∃ d rest, chars = d :: rest ∧ d.isDigit = true) :
    Decimal.read? text = Decimal.unsigned? negative chars := by
  obtain ⟨hclean, hsplit⟩ := splitSign_of_numeral htext hsign hchars hfirst
  obtain ⟨d, rest, rfl, hd⟩ := hfirst
  simp only [Decimal.read?, hclean, Option.bind_eq_bind, Option.bind_some, hsplit,
    special?_of_digit hd]
  rfl

/-- A decimal number is read as its value. -/
theorem Denotes.read {text : String} {x : ℚ} (h : Denotes text x) :
    (Decimal.read? text).bind Decimal.value? = some x := by
  obtain ⟨htext, hsign, hchars⟩ := h
  have hnumeral := hchars.isNumeral
  obtain ⟨hne, hwhole, hfraction, hexponent⟩ := hchars
  rw [Decimal.read?_eq htext hsign hnumeral (hwhole.exists_cons hne _),
    unsigned?_append hne hwhole hfraction hexponent]
  rfl

/-- A text denotes one value at most. -/
theorem Denotes.unique {text : String} {x y : ℚ} (hx : Denotes text x) (hy : Denotes text y) :
    x = y :=
  Option.some_inj.1 (hx.read.symm.trans hy.read)

section Digits

theorem allDigits_decimalDigits (n : ℕ) : AllDigits (decimalDigits n) :=
  fun _ hc => Nat.isDigit_of_mem_toDigits (by omega) (by omega) hc

theorem decimalDigits_ne_nil (n : ℕ) : decimalDigits n ≠ [] :=
  Nat.toDigits_ne_nil

/-- A positive number has more than `k` digits from the `k`-th power of ten on. -/
theorem lt_length_decimalDigits_iff {n : ℕ} (hn : 0 < n) (k : ℕ) :
    k < (decimalDigits n).length ↔ 10 ^ k ≤ n := by
  cases k with
  | zero =>
    have hlength : 0 < (decimalDigits n).length := List.length_pos_iff.2 (decimalDigits_ne_nil n)
    exact iff_of_true hlength hn
  | succ k =>
    have hle : (decimalDigits n).length ≤ k + 1 ↔ n < 10 ^ (k + 1) :=
      Nat.length_toDigits_le_iff (by omega) k.succ_pos
    rw [← not_le, hle, not_lt]

theorem ofDigitChars_decimalDigits (n : ℕ) : Nat.ofDigitChars 10 (decimalDigits n) 0 = n :=
  Nat.ofDigitChars_toDigits (by omega) (by omega)

end Digits

section Integers

variable {text : String} {n : ℤ}

theorem natAbs_signed (negative : Bool) (n : ℕ) : (signed negative (n : ℤ)).natAbs = n := by
  cases negative <;> simp [signed]

/-- An integer in decimal is read as that integer. -/
theorem Spells.integer? (h : Spells text n) : integer? text = some n := by
  obtain ⟨htext, hsign, hne, hdigits⟩ := h
  have hfirst := hdigits.exists_cons hne []
  rw [List.append_nil] at hfirst
  obtain ⟨hclean, hsplit⟩ := splitSign_of_numeral htext hsign hdigits.isNumeral hfirst
  simp only [Number.integer?, hclean, Option.bind_eq_bind, Option.bind_some, hsplit,
    natural?_of_allDigits hne hdigits]
  rfl

/-- Read as a number with a fraction, an integer in decimal has all its digits and no exponent. -/
theorem Spells.read? (h : Spells text n) :
    ∃ negative, Decimal.read? text = some (.finite negative n.natAbs 0) ∧
      n = signed negative (n.natAbs : ℤ) := by
  obtain ⟨htext, hsign, hne, hdigits⟩ := h
  rename_i sign digits negative
  refine ⟨negative, ?_, by rw [natAbs_signed]⟩
  have hfirst := hdigits.exists_cons hne []
  have hread : Decimal.unsigned? negative (digits ++ (pointed [] ++ [])) = _ :=
    unsigned?_append hne hdigits nofun .none
  simp only [pointed, List.append_nil] at hfirst hread
  rw [natAbs_signed, Decimal.read?_eq htext hsign hdigits.isNumeral hfirst, hread]
  rfl

theorem integerText_eq (n : ℤ) : integerText n = toString n := by
  cases n with
  | ofNat n => rfl
  | negSucc n =>
    change String.ofList (['-'] ++ decimalDigits (n + 1)) = toString (Int.negSucc n)
    exact String.ofList_append

/-- An integer in decimal denotes that integer. -/
theorem Spells.denotes (h : Spells text n) : Denotes text n := by
  obtain ⟨htext, hsign, hne, hdigits⟩ := h
  rename_i sign digits negative
  have hchars : Unsigned (digits ++ (pointed [] ++ [])) _ := .intro hne hdigits nofun .none
  simp only [pointed, List.append_nil, List.length_nil, Nat.cast_zero, sub_zero, zpow_zero,
    mul_one] at hchars
  have hcast : ((signed negative (Nat.ofDigitChars 10 digits 0 : ℤ) : ℤ) : ℚ) =
      signed negative (Nat.ofDigitChars 10 digits 0 : ℚ) := by
    cases negative <;> simp [signed]
  rw [hcast]
  exact .intro htext hsign hchars

/-- The decimal form of an integer spells it. -/
theorem spells_toString (n : ℤ) : Spells (toString n) n := by
  rw [← integerText_eq]
  cases n with
  | ofNat k =>
    have htext : (integerText (Int.ofNat k)).toList = [] ++ decimalDigits k :=
      String.toList_ofList
    have h := Spells.intro htext .none (decimalDigits_ne_nil k) (allDigits_decimalDigits k)
    rwa [ofDigitChars_decimalDigits] at h
  | negSucc k =>
    have htext : (integerText (Int.negSucc k)).toList = ['-'] ++ decimalDigits (k + 1) :=
      String.toList_ofList
    have h := Spells.intro htext .minus (decimalDigits_ne_nil _) (allDigits_decimalDigits _)
    rwa [ofDigitChars_decimalDigits] at h

end Integers

end FluentGen.Number
