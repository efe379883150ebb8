import FluentGen.Name.Style
import Mathlib.Data.List.TakeWhile

/-!
When names can be told from their camel case. A name of one word becomes a capital with small letters
and digits behind it, so a text of several of them falls apart at its capitals in one way only. An
underscore is dropped, so with names of several words this is no longer so.
-/

namespace FluentGen.Name

def isSmall (c : Char) : Bool :=
  'a' ≤ c && c ≤ 'z'

/-- A name of one word: a small letter, and small letters and digits behind it. -/
def isWord (name : String) : Bool :=
  match name.toList with
  | [] => false
  | c :: rest => isSmall c && rest.all isSmallOrDigit

theorem toNat_of_isSmall {c : Char} (h : isSmall c = true) :
    ∃ n : Fin 26, c = Char.ofNat (97 + n) := by
  rw [isSmall, Bool.and_eq_true, decide_eq_true_eq, decide_eq_true_eq] at h
  have hfirst : 97 ≤ c.toNat := h.1
  have hlast : c.toNat ≤ 122 := h.2
  refine ⟨⟨c.toNat - 97, by omega⟩, ?_⟩
  rw [Nat.add_sub_cancel' hfirst, Char.ofNat_toNat]

theorem isWord_iff {name : String} :
    isWord name = true ↔ ∃ c rest, name.toList = c :: rest ∧ isSmall c = true ∧
      ∀ d ∈ rest, isSmallOrDigit d = true := by
  unfold isWord
  cases name.toList with
  | nil => simp
  | cons first others =>
    rw [Bool.and_eq_true, List.all_eq_true]
    constructor
    · intro h
      exact ⟨first, others, rfl, h⟩
    · rintro ⟨c, rest, heq, h⟩
      cases heq
      exact h

theorem ne_underscore_of_isSmallOrDigit {c : Char} (h : isSmallOrDigit c = true) : c ≠ '_' := by
  rintro rfl
  exact absurd h (by decide)

theorem camelFrom_of_small {rest : List Char} (h : ∀ d ∈ rest, isSmallOrDigit d = true) :
    camelFrom false rest = rest := by
  induction rest with
  | nil => rfl
  | cons d rest ih =>
    have hd := ne_underscore_of_isSmallOrDigit (h d List.mem_cons_self)
    rw [camelFrom, if_neg hd, ih fun e he => h e (List.mem_cons_of_mem d he)]
    rfl

theorem camelCase_of_word {name : String} {c : Char} {rest : List Char}
    (hname : name.toList = c :: rest) (hc : isSmall c = true)
    (hrest : ∀ d ∈ rest, isSmallOrDigit d = true) :
    (camelCase name).toList = c.toUpper :: rest := by
  obtain ⟨n, rfl⟩ := toNat_of_isSmall hc
  have hupper : ∀ n : Fin 26, Char.ofNat (97 + n) ≠ '_' ∧
      Text.upperChars (Char.ofNat (97 + n)) = [(Char.ofNat (97 + n)).toUpper] := by decide
  rw [camelCase, hname, String.toList_ofList, camelFrom, if_neg (hupper n).1, if_pos rfl,
    (hupper n).2, camelFrom_of_small hrest]
  rfl

/-- The capital of a word tells its first letter, and it ends the word before. -/
theorem toUpper_of_isSmall {c : Char} (h : isSmall c = true) :
    c.toUpper.toLower = c ∧ isSmallOrDigit c.toUpper = false := by
  obtain ⟨n, rfl⟩ := toNat_of_isSmall h
  revert n
  decide

/-- Behind a word the text goes on with a capital, if it goes on. -/
theorem head?_joined {words : List String} (h : ∀ w ∈ words, isWord w = true) {c : Char}
    (hc : (words.flatMap fun w => (camelCase w).toList).head? = some c) :
    isSmallOrDigit c = false := by
  cases words with
  | nil => cases hc
  | cons w words =>
    obtain ⟨first, rest, hname, hfirst, hrest⟩ := isWord_iff.1 (h w List.mem_cons_self)
    rw [List.flatMap_cons, camelCase_of_word hname hfirst hrest] at hc
    cases hc
    exact (toUpper_of_isSmall hfirst).2

theorem takeWhile_small {rest more : List Char} (hrest : ∀ d ∈ rest, isSmallOrDigit d = true)
    (hmore : ∀ c, more.head? = some c → isSmallOrDigit c = false) :
    (rest ++ more).takeWhile isSmallOrDigit = rest := by
  rw [List.takeWhile_append_of_pos hrest]
  cases more with
  | nil => simp
  | cons c more => simp [hmore c rfl]

-- The induction is on the words of one text. The first words agree since each of them ends where
-- the small letters do.
/-- Words are told from their camel case run together. -/
theorem eq_of_joined_eq {words others : List String} (h : ∀ w ∈ words, isWord w = true)
    (h' : ∀ w ∈ others, isWord w = true)
    (heq : (words.flatMap fun w => (camelCase w).toList) =
      others.flatMap fun w => (camelCase w).toList) : words = others := by
  induction words generalizing others with
  | nil =>
    cases others with
    | nil => rfl
    | cons w others =>
      obtain ⟨c, rest, hname, hc, hrest⟩ := isWord_iff.1 (h' w List.mem_cons_self)
      rw [List.flatMap_cons, camelCase_of_word hname hc hrest] at heq
      cases heq
  | cons w words ih =>
    obtain ⟨c, rest, hname, hc, hrest⟩ := isWord_iff.1 (h w List.mem_cons_self)
    rw [List.flatMap_cons, camelCase_of_word hname hc hrest] at heq
    cases others with
    | nil => cases heq
    | cons w' others =>
      obtain ⟨c', rest', hname', hc', hrest'⟩ := isWord_iff.1 (h' w' List.mem_cons_self)
      rw [List.flatMap_cons, camelCase_of_word hname' hc' hrest'] at heq
      have hwords : ∀ w ∈ words, isWord w = true := fun w hw => h w (List.mem_cons_of_mem _ hw)
      have hothers : ∀ w ∈ others, isWord w = true := fun w hw =>
        h' w (List.mem_cons_of_mem _ hw)
      rw [List.cons_append, List.cons_append] at heq
      obtain ⟨hcapital, htext⟩ := List.cons.inj heq
      have hfirst : c = c' := by
        rw [← (toUpper_of_isSmall hc).1, hcapital, (toUpper_of_isSmall hc').1]
      have hbehind : rest = rest' := by
        have htaken := congrArg (List.takeWhile isSmallOrDigit) htext
        rwa [takeWhile_small hrest fun _ => head?_joined hwords,
          takeWhile_small hrest' fun _ => head?_joined hothers] at htaken
      subst hfirst hbehind
      have hsame : w = w' := String.toList_injective (hname.trans hname'.symm)
      rw [hsame, ih hwords hothers (List.append_cancel_left htext)]

end FluentGen.Name
