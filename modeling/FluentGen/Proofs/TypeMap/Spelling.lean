import FluentGen.Proofs.Text.Character
import FluentGen.Proofs.TextFormat.Marked
import Mathlib.Data.List.TakeWhile

/-!
The pass over a text that looks for spelled keys stays in step with the scan that reads its tokens.
It finds a key exactly where the tokens are the word `key`, a colon and a literal with no comment
between them, as long as the tokens are calm: no other word or number ends with `key`, and no symbol
that counts as a letter stands in front of that word.
-/

namespace FluentGen.TypeMap

open TextFormat

/-- A key in a text: whether a comment stands between the tokens of its spelling, the literal that
spells it, and the literals that directly follow and belong to its text as well. -/
structure KeyMark where
  commented : Bool
  spelling : List Char
  more : List (List Char)

/-- The text of a key, which the spelling shows if it is alone and without escapes. -/
def KeyMark.text? (key : KeyMark) : Option String :=
  textOfLiterals? (key.spelling :: key.more)

/-- The key that the first tokens spell. -/
def keyAtMarks? : List Marked → Option KeyMark
  | ⟨_, .word text⟩ :: ⟨colonCommented, .symbol c⟩ ::
      ⟨literalCommented, .literal inside⟩ :: rest =>
    if text = "key" ∧ c = ':' then
      some ⟨colonCommented || literalCommented, inside, (leadingLiterals (rest.map (·.token))).1⟩
    else none
  | _ => none

/-- The keys that tokens spell, in their order. -/
def keyMarks : List Marked → List KeyMark
  | [] => []
  | m :: rest => (keyAtMarks? (m :: rest)).toList ++ keyMarks rest

/-- The spellings without a comment. -/
def plainSpellings (keys : List KeyMark) : List (List Char) :=
  (keys.filter fun key => !key.commented).map KeyMark.spelling

/-- The characters of the word in front of a key. -/
def keyWord : List Char := ['k', 'e', 'y']

/-- The token does not end with the word in front of a key, unless it is that word. -/
def CalmToken : Token → Prop
  | .word text => keyWord <:+ text.toList → text = "key"
  | .number text => ¬ keyWord <:+ text.toList
  | _ => True

/-- The tokens may follow each other: no symbol that counts as a letter stands in front of the
word `key`. -/
def CalmPair : Token → Token → Prop
  | .symbol c, .word text => Text.isWordLike c → text ≠ "key"
  | _, _ => True

/-- All tokens are calm, and so is each with the next one. -/
def Calm : List Token → Prop
  | [] => True
  | token :: rest => CalmToken token ∧ (∀ next ∈ rest.head?, CalmPair token next) ∧ Calm rest

section Pass

variable {c : Char} {rest : List Char} {inWord : Bool}

/-- Whether a word has been going on behind a text that has been passed. -/
def inWordBehind (inWord : Bool) (passed : List Char) : Bool :=
  passed.foldl (fun _ c => Text.isWordLike c) inWord

theorem keysFrom_skip (passed rest : List Char) (inWord : Bool) :
    keysFrom passed.length inWord (passed ++ rest) =
      keysFrom 0 (inWordBehind inWord passed) rest := by
  induction passed generalizing inWord with
  | nil => rfl
  | cons c passed ih =>
    rw [List.length_cons, List.cons_append, keysFrom]
    exact ih (Text.isWordLike c)

theorem keyAt?_of_ne (h : c ≠ 'k') (rest : List Char) : keyAt? (c :: rest) = none := by
  unfold keyAt?
  split
  · next heq =>
    cases heq
    exact absurd rfl h
  · rfl

theorem literal?_of_ne (hdouble : c ≠ '"') (hsingle : c ≠ '\'') (rest : List Char) :
    literal? (c :: rest) = none := by
  unfold literal?
  split
  · next heq =>
    cases heq
    exact absurd rfl hdouble
  · next heq =>
    cases heq
    exact absurd rfl hsingle
  · rfl

theorem literal?_quote {quote : Char} (h : quote = '"' ∨ quote = '\'') (rest : List Char) :
    literal? (quote :: rest) = literalInside? quote rest := by
  rcases h with rfl | rfl
  · rfl
  · rfl

theorem passedOver_plain (hhash : c ≠ '#') (hdouble : c ≠ '"') (hsingle : c ≠ '\'')
    (rest : List Char) : passedOver (c :: rest) = 1 := by
  unfold passedOver
  split
  · next heq =>
    cases heq
    exact absurd rfl hhash
  · rw [literal?_of_ne hdouble hsingle]

/-- Without a key at its start, the first character of a text is passed over alone. -/
theorem keysFrom_plain (hkey : inWord = true ∨ keyAt? (c :: rest) = none) (hhash : c ≠ '#')
    (hdouble : c ≠ '"') (hsingle : c ≠ '\'') :
    keysFrom 0 inWord (c :: rest) = keysFrom 0 (Text.isWordLike c) rest := by
  have hnone : (if inWord then none else keyAt? (c :: rest)) = none := by
    rcases hkey with rfl | hkey
    · rfl
    · rw [hkey, ite_self]
  rw [keysFrom, hnone, passedOver_plain hhash hdouble hsingle]

theorem keysFrom_hash (rest : List Char) :
    keysFrom 0 inWord ('#' :: rest) =
      keysFrom 0 (inWordBehind false (rest.takeWhile (· ≠ '\n'))) (rest.dropWhile (· ≠ '\n')) := by
  have hnone : (if inWord then none else keyAt? ('#' :: rest)) = none := by
    rw [keyAt?_of_ne (by decide), ite_self]
  have hpassed : passedOver ('#' :: rest) - 1 = (rest.takeWhile (· ≠ '\n')).length := by
    rw [passedOver, Nat.add_sub_cancel_left]
  have hword : Text.isWordLike '#' = false := by decide
  have hskip := keysFrom_skip (rest.takeWhile (· ≠ '\n')) (rest.dropWhile (· ≠ '\n')) false
  rw [List.takeWhile_append_dropWhile] at hskip
  rw [keysFrom, hnone, hpassed, hword]
  exact hskip

theorem keysFrom_literal {quote : Char} (hquote : quote = '"' ∨ quote = '\'')
    {inside behind : List Char}
    (h : literalInside? quote (inside ++ quote :: behind) = some inside) :
    keysFrom 0 inWord (quote :: (inside ++ quote :: behind)) = keysFrom 0 false behind := by
  have hne : quote ≠ 'k' ∧ quote ≠ '#' ∧ Text.isWordLike quote = false := by
    rcases hquote with rfl | rfl
    · decide
    · decide
  have hnone : (if inWord then none else keyAt? (quote :: (inside ++ quote :: behind))) = none := by
    rw [keyAt?_of_ne hne.1, ite_self]
  have hpassed : passedOver (quote :: (inside ++ quote :: behind)) - 1 =
      (inside ++ [quote]).length := by
    unfold passedOver
    split
    · next heq =>
      cases heq
      exact absurd rfl hne.2.1
    · rw [literal?_quote hquote, h]
      simp
  have hskip := keysFrom_skip (inside ++ [quote]) behind false
  have hword : inWordBehind false (inside ++ [quote]) = false := by
    rw [inWordBehind, List.foldl_append]
    exact hne.2.2
  rw [List.append_assoc, List.singleton_append, hword] at hskip
  rw [keysFrom, hnone, hpassed, hne.2.2]
  exact hskip

end Pass

section Words

/-- Inside of a word or number there is no key, unless it ends with that word. -/
theorem keyAt?_within {c : Char} {word after : List Char}
    (hword : ∀ d ∈ c :: word, continuesNumber d) (hafter : Apart after)
    (hkey : ¬ keyWord <:+ c :: word) : keyAt? (c :: word ++ after) = none := by
  rw [Option.eq_none_iff_forall_ne_some]
  intro found hfound
  unfold keyAt? at hfound
  split at hfound
  · next rest heq =>
    split at hfound
    · next behind hbehind =>
      have hgoes : ∀ d, continuesWord d → after.head? ≠ some d := by
        intro d hd hhead
        rw [hafter d hhead] at hd
        cases hd
      match word, heq with
      | [], heq =>
        simp only [List.cons_append, List.nil_append, List.cons.injEq] at heq
        exact hgoes 'e' (by decide) (by rw [heq.2]; rfl)
      | [d], heq =>
        simp only [List.cons_append, List.nil_append, List.cons.injEq] at heq
        exact hgoes 'y' (by decide) (by rw [heq.2.2]; rfl)
      | [d, d'], heq =>
        simp only [List.cons_append, List.nil_append, List.cons.injEq] at heq
        obtain ⟨rfl, rfl, rfl, -⟩ := heq
        exact hkey (List.suffix_refl _)
      | d :: d' :: d'' :: word, heq =>
        simp only [List.cons_append, List.cons.injEq] at heq
        obtain ⟨-, -, -, rfl⟩ := heq
        obtain ⟨hblank, hcolon, -⟩ := continuesNumber_plain (hword d'' (by simp))
        rw [List.dropWhile_cons_of_neg (by simp [hblank])] at hbehind
        cases hbehind
        exact hcolon rfl
    · cases hfound
  · cases hfound

/-- A word or number that does not end with the word in front of a key is passed over. -/
theorem keysFrom_within {word after : List Char} (hword : ∀ d ∈ word, continuesNumber d)
    (hafter : Apart after) (hkey : ¬ keyWord <:+ word) (inWord : Bool) :
    ∃ goesOn, keysFrom 0 inWord (word ++ after) = keysFrom 0 goesOn after := by
  induction word generalizing inWord with
  | nil => exact ⟨inWord, rfl⟩
  | cons c word ih =>
    obtain ⟨-, -, hhash, hdouble, hsingle⟩ := continuesNumber_plain (hword c List.mem_cons_self)
    have hrest : ¬ keyWord <:+ word := fun h => hkey (h.trans (List.suffix_cons c word))
    obtain ⟨goesOn, ih⟩ := ih (fun d hd => hword d (List.mem_cons_of_mem c hd)) hrest
      (Text.isWordLike c)
    refine ⟨goesOn, ?_⟩
    have hnone := keyAt?_within hword hafter hkey
    rw [List.cons_append] at hnone ⊢
    rw [keysFrom_plain (Or.inr hnone) hhash hdouble hsingle, ih]

/-- A run of characters of a word or a number is passed over up to its end. -/
theorem keysFrom_run {p : Char → Bool} (hp : ∀ d, p d → continuesNumber d)
    (hc : continuesNumber c) (hafter : Apart (rest.dropWhile p))
    (hends : ¬ keyWord <:+ c :: rest.takeWhile p) (inWord : Bool) :
    ∃ goesOn, keysFrom 0 inWord (c :: rest) = keysFrom 0 goesOn (rest.dropWhile p) := by
  have htext : c :: rest = c :: rest.takeWhile p ++ rest.dropWhile p := by
    rw [List.cons_append, List.takeWhile_append_dropWhile]
  have hall : ∀ d ∈ c :: rest.takeWhile p, continuesNumber d := by
    intro d hd
    rcases List.mem_cons.1 hd with rfl | hd
    · exact hc
    · exact hp d (List.mem_takeWhile_imp hd)
  obtain ⟨goesOn, hpass⟩ := keysFrom_within hall hafter hends inWord
  exact ⟨goesOn, htext ▸ hpass⟩

end Words

section Keys

theorem marksFrom_dropBlanks (commented : Bool) (text : List Char) :
    marksFrom .between commented (text.dropWhile Text.isBlank) =
      marksFrom .between commented text := by
  induction text with
  | nil => rfl
  | cons c rest ih =>
    by_cases hc : Text.isBlank c
    · rw [List.dropWhile_cons_of_pos hc, ih, marksFrom_blank hc]
    · rw [List.dropWhile_cons_of_neg hc]

theorem isBlank_of_dropBlanks {text rest : List Char} {c : Char}
    (h : text.dropWhile Text.isBlank = c :: rest) : Text.isBlank c = false := by
  have hnot := List.head?_dropWhile_not Text.isBlank text
  rw [h] at hnot
  simpa using hnot

/-- The first mark is a colon without a comment in front of it exactly if a colon stands behind
the blanks. -/
theorem colon_of_marksFrom {text : List Char} {marks : List Marked}
    (h : marksFrom .between false text = some marks) :
    (∃ behind rest, text.dropWhile Text.isBlank = ':' :: behind ∧
        marksFrom .between false behind = some rest ∧
        marks = ⟨false, .symbol ':'⟩ :: rest) ∨
      ((∀ behind, text.dropWhile Text.isBlank ≠ ':' :: behind) ∧
        ∀ rest, marks ≠ ⟨false, .symbol ':'⟩ :: rest) := by
  rw [← marksFrom_dropBlanks] at h
  have hfront := front_of_marksFrom h
  cases htext : text.dropWhile Text.isBlank with
  | nil =>
    rw [htext] at hfront
    cases hfront
    exact Or.inr ⟨by simp, by simp⟩
  | cons c rest =>
    rw [htext] at hfront
    have hne : ∀ d, c ≠ d → ∀ behind : List Char, c :: rest ≠ d :: behind := by
      rintro d hd behind heq
      cases heq
      exact hd rfl
    cases hfront with
    | blank hblank _ =>
      rw [isBlank_of_dropBlanks htext] at hblank
      cases hblank
    | comment hrest =>
      refine Or.inr ⟨by simp, ?_⟩
      rintro rest rfl
      cases commented_of_marksFrom hrest
    | word hc _ =>
      refine Or.inr ⟨hne ':' ?_, by simp⟩
      rintro rfl
      simp [beginsWord] at hc
    | number hc _ =>
      refine Or.inr ⟨hne ':' ?_, by simp⟩
      rintro rfl
      simp [beginsNumber] at hc
    | literal hquote _ _ =>
      refine Or.inr ⟨hne ':' ?_, by simp⟩
      rintro rfl
      simp at hquote
    | symbol hc hrest =>
      by_cases hcolon : c = ':'
      · subst hcolon
        exact Or.inl ⟨_, _, rfl, hrest, rfl⟩
      · refine Or.inr ⟨hne ':' hcolon, ?_⟩
        rintro rest heq
        cases heq
        exact hcolon rfl

/-- The first mark is a literal without a comment in front of it exactly if a literal stands behind
the blanks. -/
theorem literal_of_marksFrom {text : List Char} {marks : List Marked}
    (h : marksFrom .between false text = some marks) :
    (∃ quote inside behind rest, (quote = '"' ∨ quote = '\'') ∧
        text.dropWhile Text.isBlank = quote :: (inside ++ quote :: behind) ∧
        literal? (text.dropWhile Text.isBlank) = some inside ∧
        marksFrom .between false behind = some rest ∧
        marks = ⟨false, .literal inside⟩ :: rest) ∨
      (literal? (text.dropWhile Text.isBlank) = none ∧
        ∀ inside rest, marks ≠ ⟨false, .literal inside⟩ :: rest) := by
  rw [← marksFrom_dropBlanks] at h
  have hfront := front_of_marksFrom h
  cases htext : text.dropWhile Text.isBlank with
  | nil =>
    rw [htext] at hfront
    cases hfront
    exact Or.inr ⟨rfl, by simp⟩
  | cons c rest =>
    rw [htext] at hfront
    cases hfront with
    | blank hblank _ =>
      rw [isBlank_of_dropBlanks htext] at hblank
      cases hblank
    | comment hrest =>
      refine Or.inr ⟨rfl, ?_⟩
      rintro inside rest rfl
      cases commented_of_marksFrom hrest
    | word hc _ =>
      refine Or.inr ⟨literal?_of_ne ?_ ?_ rest, by simp⟩
      · rintro rfl
        simp [beginsWord] at hc
      · rintro rfl
        simp [beginsWord] at hc
    | number hc _ =>
      refine Or.inr ⟨literal?_of_ne ?_ ?_ rest, by simp⟩
      · rintro rfl
        simp [beginsNumber] at hc
      · rintro rfl
        simp [beginsNumber] at hc
    | literal hquote hinside hrest =>
      exact Or.inl ⟨_, _, _, _, hquote, rfl, (literal?_quote hquote _).trans hinside, hrest, rfl⟩
    | symbol hc hrest =>
      refine Or.inr ⟨literal?_of_ne ?_ ?_ rest, by simp⟩
      · rintro rfl
        exact absurd hc (by decide)
      · rintro rfl
        exact absurd hc (by decide)

theorem keyAt?_colon {after behind : List Char}
    (h : after.dropWhile Text.isBlank = ':' :: behind) :
    keyAt? (keyWord ++ after) =
      (literal? (behind.dropWhile Text.isBlank)).map fun inside =>
        (inside, 3 + (after.length - behind.length)
          + (behind.length - (behind.dropWhile Text.isBlank).length) + inside.length + 2) := by
  simp only [keyWord, List.cons_append, List.nil_append, keyAt?, h]

theorem keyAt?_no_colon {after : List Char}
    (h : ∀ behind, after.dropWhile Text.isBlank ≠ ':' :: behind) :
    keyAt? (keyWord ++ after) = none := by
  simp only [keyWord, List.cons_append, List.nil_append, keyAt?]

/-- Behind the word `key` the pass finds a key exactly if the next marks are a colon and a literal
without a comment; it then takes all of these. -/
theorem keyAt?_of_marksFrom {after : List Char} {marks : List Marked}
    (h : marksFrom .between false after = some marks) :
    (∃ inside passed behind rest, after = passed ++ behind ∧
        keyAt? (keyWord ++ after) = some (inside, 3 + passed.length) ∧
        inWordBehind true passed = false ∧ marksFrom .between false behind = some rest ∧
        marks = ⟨false, .symbol ':'⟩ :: ⟨false, .literal inside⟩ :: rest) ∨
      (keyAt? (keyWord ++ after) = none ∧
        ∀ inside rest, marks ≠ ⟨false, .symbol ':'⟩ :: ⟨false, .literal inside⟩ :: rest) := by
  rcases colon_of_marksFrom h with ⟨behind, rest, hcolon, hrest, rfl⟩ | ⟨htext, hmarks⟩
  · rcases literal_of_marksFrom hrest with
      ⟨quote, inside, last, more, hquote, hstart, hliteral, hmore, rfl⟩ | ⟨hliteral, hmarks⟩
    · left
      have hafter : after = after.takeWhile Text.isBlank ++ ':' :: behind := by
        rw [← hcolon, List.takeWhile_append_dropWhile]
      have hbehind : behind = behind.takeWhile Text.isBlank ++
          quote :: (inside ++ quote :: last) := by
        rw [← hstart, List.takeWhile_append_dropWhile]
      refine ⟨inside, after.takeWhile Text.isBlank ++ ':' :: (behind.takeWhile Text.isBlank ++
        quote :: (inside ++ [quote])), last, more, ?_, ?_, ?_, hmore, rfl⟩
      · simp only [List.append_assoc, List.cons_append, List.nil_append]
        rw [← hbehind]
        exact hafter
      · have hlength := congrArg List.length hafter
        have hlength' := congrArg List.length hbehind
        simp only [List.length_append, List.length_cons] at hlength hlength'
        rw [keyAt?_colon hcolon, hliteral, hstart, Option.map_some]
        simp only [List.length_append, List.length_cons, List.length_nil, Option.some.injEq,
          Prod.mk.injEq, true_and]
        omega
      · have hword : Text.isWordLike quote = false := by
          rcases hquote with rfl | rfl
          · decide
          · decide
        simp [inWordBehind, hword]
    · right
      refine ⟨?_, ?_⟩
      · rw [keyAt?_colon hcolon, hliteral, Option.map_none]
      · rintro inside rest heq
        cases heq
        exact hmarks _ _ rfl
  · right
    exact ⟨keyAt?_no_colon htext, fun inside rest => hmarks _⟩

theorem keyMarks_of_not_word {m : Marked} (h : ∀ text, m.token ≠ .word text)
    (rest : List Marked) : keyMarks (m :: rest) = keyMarks rest := by
  obtain ⟨commented, token⟩ := m
  cases token with
  | word text => exact absurd rfl (h text)
  | number text => rfl
  | literal inside => rfl
  | symbol c => rfl

theorem keyMarks_of_ne {text : String} (h : text ≠ "key") (commented : Bool)
    (rest : List Marked) : keyMarks (⟨commented, .word text⟩ :: rest) = keyMarks rest := by
  have hnone : keyAtMarks? (⟨commented, .word text⟩ :: rest) = none := by
    unfold keyAtMarks?
    split
    · next heq =>
      cases heq
      exact if_neg fun hkey => h hkey.1
    · rfl
  rw [keyMarks, hnone]
  rfl

/-- A key that a comment hides is not among the plain spellings. -/
theorem plainSpellings_of_hidden {commented : Bool} {rest : List Marked}
    (h : ∀ inside more, rest ≠ ⟨false, .symbol ':'⟩ :: ⟨false, .literal inside⟩ :: more) :
    plainSpellings (keyMarks (⟨commented, .word "key"⟩ :: rest)) =
      plainSpellings (keyMarks rest) := by
  rw [keyMarks]
  unfold keyAtMarks?
  split
  · next colonCommented c literalCommented inside more heq =>
    cases heq
    split
    · next hkey =>
      obtain ⟨-, rfl⟩ := hkey
      have hcommented : (colonCommented || literalCommented) = true := by
        cases colonCommented with
        | true => rfl
        | false =>
          cases literalCommented with
          | true => rfl
          | false => exact absurd rfl (h inside more)
      simp [plainSpellings, hcommented]
    · rfl
  · rfl

end Keys

section Sync

/-- Behind the word `key` the pass goes on where the spelling of a key ends, if it is one, and
behind the word otherwise. -/
theorem keysFrom_keyWord {after : List Char} (hafter : Apart after) {marks : List Marked}
    (h : marksFrom .between false after = some marks) (commented : Bool) :
    (∃ inside behind rest, behind.length ≤ after.length ∧
        marksFrom .between false behind = some rest ∧
        marks = ⟨false, .symbol ':'⟩ :: ⟨false, .literal inside⟩ :: rest ∧
        keysFrom 0 false (keyWord ++ after) = inside :: keysFrom 0 false behind) ∨
      ((∃ goesOn, keysFrom 0 false (keyWord ++ after) = keysFrom 0 goesOn after) ∧
        plainSpellings (keyMarks (⟨commented, .word "key"⟩ :: marks)) =
          plainSpellings (keyMarks marks)) := by
  have hlike : Text.isWordLike 'k' = true := by decide
  rcases keyAt?_of_marksFrom h with
    ⟨inside, passed, behind, rest, rfl, hkey, hword, hrest, rfl⟩ | ⟨hnone, hmarks⟩
  · left
    have hskip := keysFrom_skip ('e' :: 'y' :: passed) behind true
    have hbehind : inWordBehind true ('e' :: 'y' :: passed) = false := hword
    have htaken : 3 + passed.length - 1 = ('e' :: 'y' :: passed).length := by
      simp only [List.length_cons]
      omega
    rw [hbehind] at hskip
    refine ⟨inside, behind, rest, ?_, hrest, rfl, ?_⟩
    · rw [List.length_append]
      omega
    · rw [keyWord, List.cons_append] at hkey ⊢
      rw [keysFrom, if_neg (by simp), hkey]
      simp only [htaken, hlike]
      exact congrArg (inside :: ·) hskip
  · right
    have hrest : ∀ d ∈ ['e', 'y'], continuesNumber d := by
      simp only [List.forall_mem_cons, List.not_mem_nil, false_imp_iff, implies_true, and_true]
      decide
    obtain ⟨goesOn, hpass⟩ := keysFrom_within hrest hafter (by decide) true
    refine ⟨⟨goesOn, ?_⟩, plainSpellings_of_hidden hmarks⟩
    rw [keyWord, List.cons_append] at hnone ⊢
    rw [keysFrom_plain (Or.inr hnone) (by decide) (by decide) (by decide), hlike]
    exact hpass

theorem ne_of_isBlank {c : Char} (h : Text.isBlank c) : ∀ d, Text.isBlank d = false → c ≠ d := by
  rintro d hd rfl
  rw [h] at hd
  cases hd

theorem ne_of_begin {c : Char} (h : begin c = ([.symbol c], .between)) :
    c ≠ 'k' ∧ c ≠ '#' ∧ c ≠ '"' ∧ c ≠ '\'' := by
  have hne : ∀ d, begin d ≠ ([.symbol d], .between) → c ≠ d := by
    rintro d hd rfl
    exact hd h
  exact ⟨hne _ (by decide), hne _ (by decide), hne _ (by decide), hne _ (by decide)⟩

theorem apart_line (text : List Char) : Apart (text.dropWhile (· ≠ '\n')) := by
  intro c hc
  have hnot := List.head?_dropWhile_not (· ≠ '\n') text
  rw [Option.mem_def.1 hc] at hnot
  have hline : c = '\n' := by simpa using hnot
  rw [hline]
  decide

theorem length_dropWhile_le_of_le {p : Char → Bool} {text : List Char} {n : Nat}
    (h : text.length ≤ n) : (text.dropWhile p).length ≤ n :=
  Nat.le_trans (List.dropWhile_suffix p).length_le h

/-- No word has just been going on in front of the word `key`. -/
theorem inWord_eq_false {inWord : Bool} {text : List Char} {c : Char} {marks : List Marked}
    {commented : Bool} (hc : beginsWord c)
    (hword : inWord = true → Apart (c :: text) ∨
      ∀ m ∈ (⟨commented, .word "key"⟩ :: marks : List Marked).head?, m.token ≠ .word "key") :
    inWord = false := by
  rw [Bool.eq_false_iff]
  intro hgoes
  rcases hword hgoes with hapart | hne
  · have hstop : continuesWord c = false := hapart c rfl
    rw [continuesWord_of_beginsWord hc] at hstop
    cases hstop
  · exact hne _ rfl rfl

/-- The pass over a text finds the keys that its marks spell without a comment. If a word has just
been going on, no other word may begin at once with `key`. The induction is on the length of the
text. -/
theorem keysFrom_eq_plainSpellings (n : Nat) {text : List Char} (hlength : text.length ≤ n)
    {commented : Bool} {marks : List Marked}
    (h : marksFrom .between commented text = some marks)
    (hcalm : Calm (marks.map (·.token))) {inWord : Bool}
    (hword : inWord = true → Apart text ∨ ∀ m ∈ marks.head?, m.token ≠ .word "key") :
    keysFrom 0 inWord text = plainSpellings (keyMarks marks) := by
  induction n generalizing text commented marks inWord with
  | zero =>
    obtain rfl := List.length_eq_zero_iff.1 (Nat.le_zero.1 hlength)
    cases h
    rfl
  | succ n ih =>
    cases front_of_marksFrom h with
    | ended => rfl
    | @blank c rest marks hblank hrest =>
      have hne := ne_of_isBlank hblank
      have hlike := Text.isWordLike_of_isBlank hblank
      rw [keysFrom_plain (Or.inr (keyAt?_of_ne (hne _ (by decide)) rest)) (hne _ (by decide))
        (hne _ (by decide)) (hne _ (by decide)), hlike]
      exact ih (Nat.le_of_succ_le_succ hlength) hrest hcalm (by simp)
    | @comment rest marks hrest =>
      rw [keysFrom_hash]
      exact ih (length_dropWhile_le_of_le (Nat.le_of_succ_le_succ hlength)) hrest hcalm
        fun _ => Or.inl (apart_line rest)
    | @word c rest marks hc hrest =>
      have hafter := apart_dropWhile rest
      have hafterLength : (rest.dropWhile continuesWord).length ≤ n :=
        length_dropWhile_le_of_le (Nat.le_of_succ_le_succ hlength)
      by_cases hkey : c :: rest.takeWhile continuesWord = keyWord
      · have htext : c :: rest = keyWord ++ rest.dropWhile continuesWord := by
          rw [← hkey, List.cons_append, List.takeWhile_append_dropWhile]
        have hspelled : String.ofList keyWord = "key" := rfl
        rw [hkey, hspelled] at hword ⊢
        rw [inWord_eq_false hc hword, htext]
        rcases keysFrom_keyWord hafter hrest commented with
          ⟨inside, behind, more, hbehind, hmore, rfl, heq⟩ | ⟨⟨goesOn, heq⟩, hhidden⟩
        · have hmarks : plainSpellings (keyMarks (⟨commented, .word "key"⟩ ::
              ⟨false, .symbol ':'⟩ :: ⟨false, .literal inside⟩ :: more)) =
                inside :: plainSpellings (keyMarks more) := rfl
          rw [heq, hmarks, ih (Nat.le_trans hbehind hafterLength) hmore hcalm.2.2.2.2.2.2 (by simp)]
        · rw [heq, hhidden]
          exact ih hafterLength hrest hcalm.2.2 fun _ => Or.inl hafter
      · have hne : String.ofList (c :: rest.takeWhile continuesWord) ≠ "key" := by
          intro heq
          exact hkey (String.ofList_inj.1 (heq.trans (by rfl : "key" = String.ofList keyWord)))
        have hends : ¬ keyWord <:+ c :: rest.takeWhile continuesWord := by
          intro hends
          exact hne (hcalm.1 (by simpa using hends))
        obtain ⟨goesOn, hpass⟩ := keysFrom_run (fun _ => continuesNumber_of_continuesWord)
          (continuesNumber_of_continuesWord (continuesWord_of_beginsWord hc)) hafter hends inWord
        rw [hpass, keyMarks_of_ne hne]
        exact ih hafterLength hrest hcalm.2.2 fun _ => Or.inl hafter
    | @number c rest marks hc hrest =>
      have hafter := apart_dropWhile_continuesNumber rest
      have hends : ¬ keyWord <:+ c :: rest.takeWhile continuesNumber := by
        intro hends
        exact hcalm.1 (by simpa using hends)
      obtain ⟨goesOn, hpass⟩ := keysFrom_run (fun _ h => h) (continuesNumber_of_beginsNumber hc)
        hafter hends inWord
      rw [hpass, keyMarks_of_not_word (by simp)]
      exact ih (length_dropWhile_le_of_le (Nat.le_of_succ_le_succ hlength)) hrest hcalm.2.2
        fun _ => Or.inl hafter
    | @literal quote inside behind marks hquote hinside hrest =>
      rw [keysFrom_literal hquote hinside, keyMarks_of_not_word (by simp)]
      refine ih ?_ hrest hcalm.2.2 (by simp)
      simp only [List.length_cons, List.length_append] at hlength
      omega
    | @symbol c rest marks hc hrest =>
      obtain ⟨hk, hhash, hdouble, hsingle⟩ := ne_of_begin hc
      rw [keysFrom_plain (Or.inr (keyAt?_of_ne hk rest)) hhash hdouble hsingle,
        keyMarks_of_not_word (by simp)]
      refine ih (Nat.le_of_succ_le_succ hlength) hrest hcalm.2.2 ?_
      intro hlike
      right
      intro m hm
      have hpair := hcalm.2.1 m.token (by simp [Option.mem_def.1 hm])
      rintro htoken
      rw [htoken] at hpair
      exact hpair hlike rfl

/-- The keys that a text spells are those of its marks without a comment in their spelling. -/
theorem spelledKeys_eq {text : String} {marks : List Marked} (h : marks? text = some marks)
    (hcalm : Calm (marks.map (·.token))) :
    spelledKeys text = (plainSpellings (keyMarks marks)).map String.ofList := by
  rw [spelledKeys, keysFrom_eq_plainSpellings _ (Nat.le_refl _) h hcalm (by simp)]

end Sync

end FluentGen.TypeMap
