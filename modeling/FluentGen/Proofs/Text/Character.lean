import FluentGen.TextFormat.Token

/-!
How the classes of characters lie to each other. The words of the text format are made of ASCII;
a blank is in no word, also not in one of another script.
-/

namespace FluentGen.Text

variable {c : Char}

theorem isAlphanum_iff : c.isAlphanum = true ↔
    (48 ≤ c.toNat ∧ c.toNat ≤ 57) ∨ (65 ≤ c.toNat ∧ c.toNat ≤ 90) ∨
      (97 ≤ c.toNat ∧ c.toNat ≤ 122) := by
  have h0 : '0'.val.toNat = 48 := rfl
  have h9 : '9'.val.toNat = 57 := rfl
  have hA : 'A'.val.toNat = 65 := rfl
  have hZ : 'Z'.val.toNat = 90 := rfl
  have ha : 'a'.val.toNat = 97 := rfl
  have hz : 'z'.val.toNat = 122 := rfl
  have hupper : c.isUpper = decide (c.val ≥ 'A'.val ∧ c.val ≤ 'Z'.val) := rfl
  have hlower : c.isLower = (decide (c.val ≥ 'a'.val) && decide (c.val ≤ 'z'.val)) := rfl
  have halpha : c.isAlpha = (c.isUpper || c.isLower) := rfl
  simp only [Char.isAlphanum, halpha, hupper, hlower, Char.isDigit, Bool.or_eq_true,
    Bool.and_eq_true, decide_eq_true_eq, ge_iff_le, UInt32.le_iff_toNat_le, Char.toNat]
  omega

/-- A character of a name is an ASCII letter, digit or underscore. -/
theorem isAlphanum_or_underscore (h : c.isAlphanum = true ∨ c = '_') :
    48 ≤ c.toNat ∧ c.toNat < 128 := by
  rcases h with h | rfl
  · have := isAlphanum_iff.1 h
    omega
  · decide

theorem isWordLike_iff_of_lt (h : c.toNat < 128) :
    isWordLike c = true ↔ c.isAlphanum = true ∨ c = '_' := by
  rw [isWordLike, if_pos h, Bool.or_eq_true, decide_eq_true_eq]

section Blanks

/-- The code points of the blanks above ASCII. -/
def wideBlanks : List Nat := [
  0x85, 0xA0, 0x1680, 0x2000, 0x2001, 0x2002, 0x2003, 0x2004, 0x2005, 0x2006, 0x2007, 0x2008,
  0x2009, 0x200A, 0x2028, 0x2029, 0x202F, 0x205F, 0x3000]

theorem mem_wideBlanks (h : isWideBlank c) : c.toNat ∈ wideBlanks := by
  simp only [isWideBlank, Bool.or_eq_true, Bool.and_eq_true, beq_iff_eq, decide_eq_true_eq] at h
  simp only [wideBlanks, List.mem_cons, List.not_mem_nil, or_false]
  omega

/-- A blank of ASCII lies below all printed characters. -/
theorem isBlank_cases (h : isBlank c) : c.toNat ≤ 32 ∨ c.toNat ∈ wideBlanks := by
  simp only [isBlank, Bool.or_eq_true, Bool.and_eq_true, decide_eq_true_eq] at h
  rcases h with hlow | hwide
  · left
    omega
  · exact Or.inr (mem_wideBlanks hwide)

/-- A blank is in no word. -/
theorem isWordLike_of_isBlank (h : isBlank c) : isWordLike c = false := by
  rcases isBlank_cases h with hlow | hwide
  · rw [Bool.eq_false_iff]
    intro hword
    have := isAlphanum_or_underscore ((isWordLike_iff_of_lt (by omega)).1 hword)
    omega
  · have hall : ∀ n ∈ wideBlanks, 128 ≤ n ∧ inRanges wordRanges n = false := by decide +kernel
    obtain ⟨hle, hranges⟩ := hall _ hwide
    rw [isWordLike, if_neg (by omega), hranges]

theorem isBlank_of_lt (h : 32 < c.toNat) (hascii : c.toNat < 128) : isBlank c = false := by
  rw [Bool.eq_false_iff]
  intro hblank
  rcases isBlank_cases hblank with hlow | hwide
  · omega
  · have hall : ∀ n ∈ wideBlanks, 128 ≤ n := by decide
    have := hall _ hwide
    omega

end Blanks

end FluentGen.Text

namespace FluentGen.TextFormat

variable {c : Char}

theorem continuesWord_of_beginsWord (h : beginsWord c) : continuesWord c := by
  simp only [beginsWord, Bool.or_eq_true, decide_eq_true_eq] at h
  rcases h with h | h
  · simp [continuesWord, Char.isAlphanum, h]
  · simp [continuesWord, h]

/-- What continues a word is in a word of any script, or a sign. -/
theorem continuesWord_cases (h : continuesWord c) :
    (c.isAlphanum = true ∨ c = '_') ∨ c = '+' ∨ c = '-' := by
  simp only [continuesWord, Bool.or_eq_true, decide_eq_true_eq] at h
  exact or_assoc.1 h

theorem toNat_of_continuesWord (h : continuesWord c) : 32 < c.toNat ∧ c.toNat < 128 := by
  rcases continuesWord_cases h with h | rfl | rfl
  · have := Text.isAlphanum_or_underscore h
    omega
  · decide
  · decide

theorem isBlank_of_continuesWord (h : continuesWord c) : Text.isBlank c = false :=
  Text.isBlank_of_lt (toNat_of_continuesWord h).1 (toNat_of_continuesWord h).2

theorem begin_of_beginsWord (h : beginsWord c) : begin c = ([], .word [c]) := by
  have hblank := isBlank_of_continuesWord (continuesWord_of_beginsWord h)
  have hhash : c ≠ '#' := by
    rintro rfl
    simp [beginsWord] at h
  simp [begin, hblank, hhash, h]

/-- What continues a number is no blank and has no meaning of its own. -/
theorem continuesNumber_plain (h : continuesNumber c) :
    Text.isBlank c = false ∧ c ≠ ':' ∧ c ≠ '#' ∧ c ≠ '"' ∧ c ≠ '\'' := by
  have hne : ∀ d, continuesNumber d = false → c ≠ d := by
    rintro d hd rfl
    rw [h] at hd
    cases hd
  refine ⟨?_, hne _ (by decide), hne _ (by decide), hne _ (by decide), hne _ (by decide)⟩
  simp only [continuesNumber, Bool.or_eq_true, decide_eq_true_eq] at h
  rcases h with h | rfl
  · exact isBlank_of_continuesWord h
  · decide

theorem continuesNumber_of_continuesWord (h : continuesWord c) : continuesNumber c := by
  simp [continuesNumber, h]

theorem continuesNumber_of_beginsNumber (h : beginsNumber c) : continuesNumber c := by
  simp only [beginsNumber, Bool.or_eq_true, decide_eq_true_eq] at h
  rcases h with (h | h) | h
  · simp [continuesNumber, continuesWord, Char.isAlphanum, h]
  · simp [continuesNumber, continuesWord, h]
  · simp [continuesNumber, continuesWord, h]

/-- No word goes on at the start of the text. -/
def Apart (text : List Char) : Prop :=
  ∀ c ∈ text.head?, continuesWord c = false

theorem apart_cons (h : continuesWord c = false) (rest : List Char) : Apart (c :: rest) := by
  intro d hd
  cases hd
  exact h

theorem Apart.append {text more : List Char} (h : Apart text) (hmore : Apart more) :
    Apart (text ++ more) := by
  cases text with
  | nil => exact hmore
  | cons c text => exact h

theorem apart_dropWhile (text : List Char) : Apart (text.dropWhile continuesWord) := by
  intro c hc
  have hnot := List.head?_dropWhile_not continuesWord text
  rw [Option.mem_def.1 hc] at hnot
  simpa using hnot

/-- No word goes on behind a number. -/
theorem apart_dropWhile_continuesNumber (text : List Char) :
    Apart (text.dropWhile continuesNumber) := by
  intro c hc
  have hnot := List.head?_dropWhile_not continuesNumber text
  rw [Option.mem_def.1 hc] at hnot
  rw [Bool.eq_false_iff]
  intro hword
  simp [continuesNumber_of_continuesWord hword] at hnot

end FluentGen.TextFormat
