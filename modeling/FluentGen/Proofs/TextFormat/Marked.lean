import FluentGen.TypeMap.Spelling
import Mathlib.Data.List.Basic

/-!
The tokens of a text together with the comments between them. The scan is the one that reads
tokens; it only remembers whether it has passed a comment since the last token. Each kind of token
has one lemma that takes it off the front of a text.
-/

namespace FluentGen.TextFormat

/-- A token, and whether a comment stands between it and the token before. -/
structure Marked where
  commented : Bool
  token : Token
  deriving DecidableEq, Repr

/-- Marks tokens of which only the first one can have a comment in front. -/
def mark (commented : Bool) : List Token → List Marked
  | [] => []
  | token :: rest => ⟨commented, token⟩ :: rest.map (⟨false, ·⟩)

/-- Whether a comment has been passed since the last token, behind a step that has completed the
given tokens. -/
def stillCommented (commented : Bool) (tokens : List Token) (scan : Scan) : Bool :=
  (commented && tokens.isEmpty) || decide (scan = .comment)

/-- The marked tokens of the rest of a text. -/
def marksFrom : Scan → (commented : Bool) → List Char → Option (List Marked)
  | scan, commented, [] => (finish scan).map (mark commented)
  | scan, commented, c :: rest => do
    let (tokens, scan) ← step scan c
    return mark commented tokens ++ (← marksFrom scan (stillCommented commented tokens scan) rest)

/-- The marked tokens of a text. -/
def marks? (text : String) : Option (List Marked) :=
  marksFrom .between false text.toList

theorem token_mark (commented : Bool) (tokens : List Token) :
    (mark commented tokens).map (·.token) = tokens := by
  cases tokens with
  | nil => rfl
  | cons token rest => simp [mark, Function.comp_def]

theorem mark_false (tokens : List Token) : mark false tokens = tokens.map (⟨false, ·⟩) := by
  cases tokens <;> rfl

/-- Without the marks these are the tokens of the text. -/
theorem scanFrom_eq_map_marksFrom (scan : Scan) (commented : Bool) (text : List Char) :
    scanFrom scan text = (marksFrom scan commented text).map (·.map (·.token)) := by
  induction text generalizing scan commented with
  | nil =>
    cases h : finish scan with
    | none => simp [scanFrom, marksFrom, h]
    | some tokens => simp [scanFrom, marksFrom, h, token_mark]
  | cons c rest ih =>
    cases h : step scan c with
    | none => simp [scanFrom, marksFrom, h]
    | some next =>
      obtain ⟨tokens, next⟩ := next
      simp only [scanFrom, marksFrom, h, Option.bind_eq_bind, Option.bind_some,
        ih next (stillCommented commented tokens next)]
      cases marksFrom next (stillCommented commented tokens next) rest with
      | none => rfl
      | some marks => simp [token_mark]

theorem tokens?_eq_map_marks? (text : String) :
    tokens? text = (marks? text).map (·.map (·.token)) :=
  scanFrom_eq_map_marksFrom _ _ _

section Front

variable {c : Char} {commented : Bool} {scan next : Scan} {token : Token}

/-- A step that completes no token leaves the mark alone, unless it goes into a comment. -/
theorem marksFrom_silent (h : step scan c = some ([], next)) (hnext : next ≠ .comment)
    (rest : List Char) :
    marksFrom scan commented (c :: rest) = marksFrom next commented rest := by
  have hcommented : stillCommented commented [] next = commented := by
    simp [stillCommented, hnext]
  simp [marksFrom, h, hcommented, mark]

theorem marksFrom_stuck (h : step scan c = none) (rest : List Char) :
    marksFrom scan commented (c :: rest) = none := by
  simp [marksFrom, h]

/-- A step that completes one token clears the mark. -/
theorem marksFrom_token (h : step scan c = some ([token], .between)) (rest : List Char) :
    marksFrom scan commented (c :: rest) =
      (marksFrom .between false rest).map (⟨commented, token⟩ :: ·) := by
  have hcommented : stillCommented commented [token] .between = false := by
    simp [stillCommented]
  simp only [marksFrom, h, hcommented, Option.bind_eq_bind, Option.bind_some]
  cases marksFrom .between false rest with
  | none => rfl
  | some marks => rfl

theorem begin_of_isBlank (h : Text.isBlank c) : begin c = ([], .between) := by
  rw [begin, if_pos h]

theorem marksFrom_blank (h : Text.isBlank c) (rest : List Char) :
    marksFrom .between commented (c :: rest) = marksFrom .between commented rest := by
  refine marksFrom_silent ?_ (by simp) rest
  rw [step, begin_of_isBlank h]

/-- A comment ends with its line. -/
theorem marksFrom_comment (rest : List Char) :
    marksFrom .comment true rest = marksFrom .between true (rest.dropWhile (· ≠ '\n')) := by
  induction rest with
  | nil => rfl
  | cons c rest ih =>
    by_cases hline : c = '\n'
    · subst hline
      have hblank : Text.isBlank '\n' := by decide
      rw [List.dropWhile_cons_of_neg (by simp), marksFrom_blank hblank]
      simp [marksFrom, step, stillCommented, mark]
    · rw [List.dropWhile_cons_of_pos (by simpa using hline), ← ih]
      simp [marksFrom, step, hline, stillCommented, mark]

theorem marksFrom_hash (rest : List Char) :
    marksFrom .between commented ('#' :: rest) =
      marksFrom .between true (rest.dropWhile (· ≠ '\n')) := by
  have hbegin : begin '#' = ([], .comment) := by decide
  rw [← marksFrom_comment]
  simp [marksFrom, step, hbegin, stillCommented, mark]

/-- At the end of a word or number the scan goes on as between tokens. -/
theorem marksFrom_completed {scan : Scan} {token : Token}
    (hstep : step scan c = some (token :: (begin c).1, (begin c).2)) (rest : List Char) :
    marksFrom scan commented (c :: rest) =
      (marksFrom .between false (c :: rest)).map (⟨commented, token⟩ :: ·) := by
  have hcommented : stillCommented commented (token :: (begin c).1) (begin c).2 =
      stillCommented false (begin c).1 (begin c).2 := by
    simp [stillCommented]
  have hbetween : step .between c = some ((begin c).1, (begin c).2) := rfl
  simp only [marksFrom, hstep, hbetween, Option.bind_eq_bind, Option.bind_some, hcommented]
  cases marksFrom (begin c).2 (stillCommented false (begin c).1 (begin c).2) rest with
  | none => rfl
  | some marks =>
    rw [mark_false]
    rfl

theorem marksFrom_inWord (read rest : List Char) :
    marksFrom (.word read) commented rest =
      (marksFrom .between false (rest.dropWhile continuesWord)).map
        (⟨commented, .word (String.ofList (read.reverse ++ rest.takeWhile continuesWord))⟩ :: ·) := by
  induction rest generalizing read with
  | nil => simp [marksFrom, finish, mark]
  | cons c rest ih =>
    by_cases hc : continuesWord c
    · have hstep : step (.word read) c = some ([], .word (c :: read)) := by simp [step, hc]
      rw [marksFrom_silent hstep (by simp), ih, List.dropWhile_cons_of_pos hc,
        List.takeWhile_cons_of_pos hc]
      simp
    · rw [List.dropWhile_cons_of_neg hc, List.takeWhile_cons_of_neg hc, List.append_nil]
      exact marksFrom_completed (by simp [step, hc]) rest

theorem marksFrom_inNumber (read rest : List Char) :
    marksFrom (.number read) commented rest =
      (marksFrom .between false (rest.dropWhile continuesNumber)).map
        (⟨commented, .number (String.ofList (read.reverse ++ rest.takeWhile continuesNumber))⟩
          :: ·) := by
  induction rest generalizing read with
  | nil => simp [marksFrom, finish, mark]
  | cons c rest ih =>
    by_cases hc : continuesNumber c
    · have hstep : step (.number read) c = some ([], .number (c :: read)) := by simp [step, hc]
      rw [marksFrom_silent hstep (by simp), ih, List.dropWhile_cons_of_pos hc,
        List.takeWhile_cons_of_pos hc]
      simp
    · rw [List.dropWhile_cons_of_neg hc, List.takeWhile_cons_of_neg hc, List.append_nil]
      exact marksFrom_completed (by simp [step, hc]) rest

theorem marksFrom_word (h : begin c = ([], .word [c])) (rest : List Char) :
    marksFrom .between commented (c :: rest) =
      (marksFrom .between false (rest.dropWhile continuesWord)).map
        (⟨commented, .word (String.ofList (c :: rest.takeWhile continuesWord))⟩ :: ·) := by
  have hstep : step .between c = some ([], .word [c]) := by rw [step, h]
  rw [marksFrom_silent hstep (by simp), marksFrom_inWord]
  rfl

theorem marksFrom_number (h : begin c = ([], .number [c])) (rest : List Char) :
    marksFrom .between commented (c :: rest) =
      (marksFrom .between false (rest.dropWhile continuesNumber)).map
        (⟨commented, .number (String.ofList (c :: rest.takeWhile continuesNumber))⟩ :: ·) := by
  have hstep : step .between c = some ([], .number [c]) := by rw [step, h]
  rw [marksFrom_silent hstep (by simp), marksFrom_inNumber]
  rfl

theorem marksFrom_symbol (h : begin c = ([.symbol c], .between)) (rest : List Char) :
    marksFrom .between commented (c :: rest) =
      (marksFrom .between false rest).map (⟨commented, .symbol c⟩ :: ·) := by
  refine marksFrom_token ?_ rest
  rw [step, h]

/-- What a character between tokens can be. -/
theorem begin_cases (c : Char) :
    Text.isBlank c ∨ c = '#' ∨ (beginsWord c ∧ begin c = ([], .word [c])) ∨
      (beginsNumber c ∧ begin c = ([], .number [c])) ∨
      ((c = '"' ∨ c = '\'') ∧ begin c = ([], .literal c [])) ∨
      begin c = ([.symbol c], .between) := by
  unfold begin
  split_ifs <;> simp_all

end Front

end FluentGen.TextFormat

namespace FluentGen.TypeMap

variable {quote : Char}

theorem literalInside?_quote (rest : List Char) :
    literalInside? quote (quote :: rest) = some [] := by
  rw [literalInside?.eq_def]
  simp

theorem literalInside?_escape (hquote : quote ≠ '\\') {d : Char} (hline : d ≠ '\n')
    (rest : List Char) :
    literalInside? quote ('\\' :: d :: rest) =
      (literalInside? quote rest).map ('\\' :: d :: ·) := by
  have hslash : ('\\' : Char) ≠ '\n' := by decide
  rw [literalInside?.eq_def]
  simp only [if_neg (Ne.symm hquote), if_neg hslash, if_neg hline, if_true]
  cases literalInside? quote rest <;> rfl

theorem literalInside?_plain {c : Char} (hquote : c ≠ quote) (hline : c ≠ '\n')
    (hslash : c ≠ '\\') (rest : List Char) :
    literalInside? quote (c :: rest) = (literalInside? quote rest).map (c :: ·) := by
  rw [literalInside?.eq_def]
  simp only [if_neg hquote, if_neg hline, if_neg hslash]
  cases literalInside? quote rest <;> rfl

/-- Behind the inside of a literal stands its closing quotation mark. -/
theorem eq_append_of_literalInside? {text inside : List Char}
    (h : literalInside? quote text = some inside) :
    ∃ behind, text = inside ++ quote :: behind := by
  fun_induction literalInside? quote text generalizing inside with
  | case1 => cases h
  | case2 rest =>
    cases h
    exact ⟨rest, rfl⟩
  | case3 => cases h
  | case4 => cases h
  | case5 => cases h
  | case6 d rest _ _ _ ih =>
    obtain ⟨more, hmore, h⟩ := Option.bind_eq_some_iff.1 h
    cases h
    obtain ⟨behind, rfl⟩ := ih hmore
    exact ⟨behind, rfl⟩
  | case7 c rest _ _ _ ih =>
    obtain ⟨more, hmore, h⟩ := Option.bind_eq_some_iff.1 h
    cases h
    obtain ⟨behind, rfl⟩ := ih hmore
    exact ⟨behind, rfl⟩

end FluentGen.TypeMap

namespace FluentGen.TextFormat

section Literals

open TypeMap (literalInside?)

variable {quote : Char}

/-- The scan through a literal ends where the literal does. -/
theorem marksFrom_inLiteral (hline : quote ≠ '\n') (commented : Bool)
    (read rest : List Char) :
    marksFrom (.literal quote read) commented rest =
      (literalInside? quote rest).bind fun inside =>
        (marksFrom .between false (rest.drop (inside.length + 1))).map
          (⟨commented, .literal (read.reverse ++ inside)⟩ :: ·) := by
  fun_induction literalInside? quote rest generalizing read with
  | case1 => rfl
  | case2 rest =>
    have hstep : step (.literal quote read) quote = some ([.literal read.reverse], .between) := by
      simp [step, hline]
    simp [marksFrom_token hstep]
  | case3 rest _ =>
    have hstep : step (.literal quote read) '\n' = none := by simp [step]
    rw [marksFrom_stuck hstep]
    rfl
  | case4 h _ =>
    have hstep : step (.literal quote read) '\\' = some ([], .escaped quote ('\\' :: read)) := by
      simp [step, h]
    rw [marksFrom_silent hstep (by simp)]
    rfl
  | case5 rest h _ =>
    have hstep : step (.literal quote read) '\\' = some ([], .escaped quote ('\\' :: read)) := by
      simp [step, h]
    rw [marksFrom_silent hstep (by simp), marksFrom_stuck (by simp [step])]
    rfl
  | case6 d rest hd h _ ih =>
    have hstep : step (.literal quote read) '\\' = some ([], .escaped quote ('\\' :: read)) := by
      simp [step, h]
    have hescape : step (.escaped quote ('\\' :: read)) d =
        some ([], .literal quote (d :: '\\' :: read)) := by
      simp [step, hd]
    rw [marksFrom_silent hstep (by simp), marksFrom_silent hescape (by simp), ih]
    cases literalInside? quote rest with
    | none => rfl
    | some inside => simp
  | case7 c rest hquote hbreak hplain ih =>
    have hstep : step (.literal quote read) c = some ([], .literal quote (c :: read)) := by
      simp [step, hquote, hbreak, hplain]
    rw [marksFrom_silent hstep (by simp), ih]
    cases literalInside? quote rest with
    | none => rfl
    | some inside => simp

theorem marksFrom_literal (hline : quote ≠ '\n')
    (h : begin quote = ([], .literal quote [])) (commented : Bool) (rest : List Char) :
    marksFrom .between commented (quote :: rest) =
      (literalInside? quote rest).bind fun inside =>
        (marksFrom .between false (rest.drop (inside.length + 1))).map
          (⟨commented, .literal inside⟩ :: ·) := by
  have hstep : step .between quote = some ([], .literal quote []) := by rw [step, h]
  rw [marksFrom_silent hstep (by simp), marksFrom_inLiteral hline]
  rfl

end Literals

section Inversion

/-- What can stand at the front of a text that is scanned to the given marks. -/
inductive Front (commented : Bool) : List Char → List Marked → Prop where
  | ended : Front commented [] []
  | blank {c : Char} {rest : List Char} {marks : List Marked} (hblank : Text.isBlank c)
      (hrest : marksFrom .between commented rest = some marks) :
    Front commented (c :: rest) marks
  | comment {rest : List Char} {marks : List Marked}
      (hrest : marksFrom .between true (rest.dropWhile (· ≠ '\n')) = some marks) :
    Front commented ('#' :: rest) marks
  | word {c : Char} {rest : List Char} {marks : List Marked} (hc : beginsWord c)
      (hrest : marksFrom .between false (rest.dropWhile continuesWord) = some marks) :
    Front commented (c :: rest)
      (⟨commented, .word (String.ofList (c :: rest.takeWhile continuesWord))⟩ :: marks)
  | number {c : Char} {rest : List Char} {marks : List Marked} (hc : beginsNumber c)
      (hrest : marksFrom .between false (rest.dropWhile continuesNumber) = some marks) :
    Front commented (c :: rest)
      (⟨commented, .number (String.ofList (c :: rest.takeWhile continuesNumber))⟩ :: marks)
  | literal {quote : Char} {inside behind : List Char} {marks : List Marked}
      (hquote : quote = '"' ∨ quote = '\'')
      (hinside : TypeMap.literalInside? quote (inside ++ quote :: behind) = some inside)
      (hrest : marksFrom .between false behind = some marks) :
    Front commented (quote :: (inside ++ quote :: behind)) (⟨commented, .literal inside⟩ :: marks)
  | symbol {c : Char} {rest : List Char} {marks : List Marked}
      (hc : begin c = ([.symbol c], .between))
      (hrest : marksFrom .between false rest = some marks) :
    Front commented (c :: rest) (⟨commented, .symbol c⟩ :: marks)

theorem front_of_marksFrom {commented : Bool} {text : List Char} {marks : List Marked}
    (h : marksFrom .between commented text = some marks) : Front commented text marks := by
  cases text with
  | nil =>
    cases h
    exact .ended
  | cons c rest =>
    rcases begin_cases c with hc | hc | ⟨hc, hbegin⟩ | ⟨hc, hbegin⟩ | ⟨hc, hbegin⟩ | hc
    · rw [marksFrom_blank hc] at h
      exact .blank hc h
    · subst hc
      rw [marksFrom_hash] at h
      exact .comment h
    · rw [marksFrom_word hbegin] at h
      obtain ⟨marks, hrest, rfl⟩ := Option.map_eq_some_iff.1 h
      exact .word hc hrest
    · rw [marksFrom_number hbegin] at h
      obtain ⟨marks, hrest, rfl⟩ := Option.map_eq_some_iff.1 h
      exact .number hc hrest
    · have hline : c ≠ '\n' := by
        rcases hc with rfl | rfl
        · decide
        · decide
      rw [marksFrom_literal hline hbegin] at h
      obtain ⟨inside, hinside, h⟩ := Option.bind_eq_some_iff.1 h
      obtain ⟨marks, hrest, rfl⟩ := Option.map_eq_some_iff.1 h
      obtain ⟨behind, rfl⟩ := TypeMap.eq_append_of_literalInside? hinside
      have hdrop : (inside ++ c :: behind).drop (inside.length + 1) = behind := by simp
      rw [hdrop] at hrest
      exact .literal hc hinside hrest
    · rw [marksFrom_symbol hc] at h
      obtain ⟨marks, hrest, rfl⟩ := Option.map_eq_some_iff.1 h
      exact .symbol hc hrest

/-- Behind a comment the first token is marked. -/
theorem commented_of_marksFrom {scan : Scan} {text : List Char} {m : Marked}
    {marks : List Marked} (h : marksFrom scan true text = some (m :: marks)) :
    m.commented = true := by
  induction text generalizing scan with
  | nil =>
    obtain ⟨tokens, -, h⟩ := Option.map_eq_some_iff.1 h
    cases tokens with
    | nil => cases h
    | cons token tokens =>
      cases h
      rfl
  | cons c rest ih =>
    simp only [marksFrom, Option.bind_eq_bind, Option.bind_eq_some_iff, Prod.exists] at h
    obtain ⟨tokens, next, -, more, hmore, h⟩ := h
    cases tokens with
    | nil =>
      have hstill : stillCommented true [] next = true := by simp [stillCommented]
      rw [hstill] at hmore
      cases h
      exact ih hmore
    | cons token tokens =>
      cases h
      rfl

end Inversion

end FluentGen.TextFormat
