import FluentGen.Proofs.Text.Character
import FluentGen.Proofs.Text.Escape
import FluentGen.Proofs.TextFormat.Grammar
import FluentGen.Proofs.TextFormat.Marked

/-!
A tree that is written and read again is the same tree. Its names and atoms have to be words, the
texts in it may be any. The written text is first scanned to the tokens of the tree; these are
grammatical, and their tree is the one that was written.
-/

namespace FluentGen.TextFormat

/-- Whether a spelling is one word. -/
def isWord (spelling : String) : Bool :=
  match spelling.toList with
  | [] => false
  | c :: rest => beginsWord c && rest.all continuesWord

mutual

/-- Whether names and atoms are words. -/
def Value.isWritable : Value → Bool
  | .atom spelling => isWord spelling
  | .text _ => true
  | .message fields => areWritable fields
  | .list items => areWritableItems items

@[inherit_doc Value.isWritable]
def Field.isWritable : Field → Bool
  | .mk name _ value => isWord name && value.isWritable

@[inherit_doc Value.isWritable]
def areWritable : List Field → Bool
  | [] => true
  | f :: rest => f.isWritable && areWritable rest

@[inherit_doc Value.isWritable]
def areWritableItems : List Value → Bool
  | [] => true
  | v :: rest => v.isWritable && areWritableItems rest

end

mutual

/-- The tokens of a value as it is written. -/
def Value.tokens : Value → List Token
  | .atom spelling => [.word spelling]
  | .text content => [.literal (content.toList.flatMap Text.escapeChar)]
  | .message fields => .symbol '{' :: (tokensOf fields ++ [.symbol '}'])
  | .list items => .symbol '[' :: (tokensOfItems items ++ [.symbol ']'])

/-- The tokens of a field as it is written. -/
def Field.tokens : Field → List Token
  | .mk name colon value => .word name :: ((if colon then [.symbol ':'] else []) ++ value.tokens)

/-- The tokens of fields as they are written. -/
def tokensOf : List Field → List Token
  | [] => []
  | f :: rest => f.tokens ++ tokensOf rest

/-- The tokens of the items of a list as they are written. -/
def tokensOfItems : List Value → List Token
  | [] => []
  | [v] => v.tokens
  | v :: w :: rest => v.tokens ++ .symbol ',' :: tokensOfItems (w :: rest)

end

section Read

/-- Tokens of which the first one goes on with nothing that stands in front of it. -/
structure Fresh (tokens : List Token) : Prop where
  noLiteral : leadingLiterals tokens = ([], tokens)
  noSeparator : skipSeparator tokens = tokens

theorem fresh_nil : Fresh [] := ⟨rfl, rfl⟩

theorem fresh_word (name : String) (rest : List Token) : Fresh (.word name :: rest) := ⟨rfl, rfl⟩

theorem fresh_brace (rest : List Token) : Fresh (.symbol '}' :: rest) := by
  refine ⟨rfl, ?_⟩
  simp [skipSeparator]

theorem fresh_tokensOf (fields : List Field) {stop : List Token} (h : Fresh stop) :
    Fresh (tokensOf fields ++ stop) := by
  cases fields with
  | nil => exact h
  | cons f rest =>
    obtain ⟨name, colon, value⟩ := f
    exact fresh_word name _

theorem textOfLiterals?_escaped (content : String) :
    textOfLiterals? [content.toList.flatMap Text.escapeChar] = some content := by
  have hbytes := (Text.escapedText_flatMap_escapeChar content.toList).unescapeChars_eq
  simp [textOfLiterals?, hbytes, Except.toOption, Text.ofUtf8?_utf8Chars]

theorem leadingColon_tokens (colon : Bool) (v : Value) (rest : List Token) :
    leadingColon ((if colon then [.symbol ':'] else []) ++ (v.tokens ++ rest)) =
      (colon, v.tokens ++ rest) := by
  cases colon with
  | true => rfl
  | false =>
    cases v with
    | atom spelling => rfl
    | text content => rfl
    | message fields => simp [Value.tokens, leadingColon]
    | list items => simp [Value.tokens, leadingColon]

theorem head?_tokens_ne_bracket (v : Value) (rest : List Token) :
    (v.tokens ++ rest).head? ≠ some (.symbol ']') := by
  cases v <;> simp [Value.tokens]

theorem head?_tokensOfItems_ne_bracket {items : List Value} (h : items ≠ [])
    (rest : List Token) : (tokensOfItems items ++ rest).head? ≠ some (.symbol ']') := by
  match items, h with
  | [v], _ => exact head?_tokens_ne_bracket v rest
  | v :: w :: items, _ =>
    rw [tokensOfItems, List.append_assoc]
    exact head?_tokens_ne_bracket v _

mutual

theorem Value.readsValue_tokens (v : Value) (rest : List Token)
    (hrest : leadingLiterals rest = ([], rest)) : ReadsValue (v.tokens ++ rest) v rest := by
  cases v with
  | atom spelling => exact .word
  | text content => exact .text hrest (textOfLiterals?_escaped content)
  | message fields =>
    have hfields := readsFields_tokensOf fields (fresh_brace rest)
      (.closed : ReadsFields (some '}') (.symbol '}' :: rest) [] rest)
    simp only [Value.tokens, List.cons_append, List.append_assoc, List.nil_append]
    exact .message (by decide) hfields
  | list items =>
    by_cases hne : items = []
    · subst hne
      exact .emptyList
    · have hitems := readsItems_tokensOfItems items hne rest
      simp only [Value.tokens, List.cons_append, List.append_assoc, List.nil_append]
      exact .list (head?_tokensOfItems_ne_bracket hne _) hitems

theorem readsFields_tokensOf (fields : List Field) {close : Option Char}
    {stop rest : List Token} (hfresh : Fresh stop) (hstop : ReadsFields close stop [] rest) :
    ReadsFields close (tokensOf fields ++ stop) fields rest := by
  cases fields with
  | nil => exact hstop
  | cons f fields =>
    obtain ⟨name, colon, value⟩ := f
    have hfresh' := fresh_tokensOf fields hfresh
    have hvalue := value.readsValue_tokens (tokensOf fields ++ stop) hfresh'.noLiteral
    have hfields := readsFields_tokensOf fields hfresh hstop
    rw [← hfresh'.noSeparator] at hfields
    simp only [tokensOf, Field.tokens, List.cons_append, List.append_assoc]
    exact .field (leadingColon_tokens colon value _) hvalue hfields

theorem readsItems_tokensOfItems (items : List Value) (h : items ≠ []) (rest : List Token) :
    ReadsItems (tokensOfItems items ++ .symbol ']' :: rest) items rest := by
  match items, h with
  | [v], _ => exact .last (v.readsValue_tokens _ rfl)
  | v :: w :: items, _ =>
    have hvalue := v.readsValue_tokens
      (.symbol ',' :: (tokensOfItems (w :: items) ++ .symbol ']' :: rest)) rfl
    have hitems := readsItems_tokensOfItems (w :: items) (List.cons_ne_nil w items) rest
    simp only [tokensOfItems, List.append_assoc, List.cons_append]
    exact .item hvalue hitems

end

end Read

section Scan

/-- Wherever no word goes on behind it, the text is scanned to the tokens, with no comment in
front of any. -/
def Spells (text : List Char) (tokens : List Token) : Prop :=
  ∀ post, Apart post →
    marksFrom .between false (text ++ post) =
      (marksFrom .between false post).map (tokens.map (⟨false, ·⟩) ++ ·)

variable {text more : List Char} {tokens others : List Token}

theorem spells_nil : Spells [] [] := by
  intro post _
  cases h : marksFrom .between false post <;> simp [h]

theorem Spells.append (h : Spells text tokens) (hmore : Spells more others)
    (hapart : Apart more) : Spells (text ++ more) (tokens ++ others) := by
  intro post hpost
  rw [List.append_assoc, h _ (hapart.append hpost), hmore post hpost]
  cases marksFrom .between false post with
  | none => rfl
  | some marks => simp

theorem Spells.blank (h : Spells text tokens) : Spells (' ' :: text) tokens := by
  intro post hpost
  rw [List.cons_append, marksFrom_blank (by decide), h post hpost]

theorem Spells.symbol (h : Spells text tokens) {c : Char}
    (hc : begin c = ([.symbol c], .between)) : Spells (c :: text) (.symbol c :: tokens) := by
  intro post hpost
  rw [List.cons_append, marksFrom_symbol hc, h post hpost]
  cases marksFrom .between false post with
  | none => rfl
  | some marks => rfl

theorem takeWhile_append_of_apart {word : List Char} (hword : word.all continuesWord)
    {post : List Char} (hpost : Apart post) :
    (word ++ post).takeWhile continuesWord = word ∧
      (word ++ post).dropWhile continuesWord = post := by
  rw [List.all_eq_true] at hword
  rw [List.takeWhile_append_of_pos hword, List.dropWhile_append_of_pos hword]
  cases post with
  | nil => simp
  | cons c post =>
    have hc : continuesWord c = false := hpost c rfl
    simp [hc]

theorem spells_word {spelling : String} (h : isWord spelling) :
    Spells spelling.toList [.word spelling] := by
  intro post hpost
  unfold isWord at h
  split at h
  · cases h
  · next c rest hspelling =>
    obtain ⟨hc, hrest⟩ := Bool.and_eq_true_iff.1 h
    obtain ⟨htake, hdrop⟩ := takeWhile_append_of_apart hrest hpost
    have hback : String.ofList (c :: rest) = spelling := by
      rw [← hspelling, String.ofList_toList]
    rw [hspelling, List.cons_append, marksFrom_word (begin_of_beginsWord hc), htake, hdrop, hback]
    rfl

/-- Reading a literal takes one piece of an escaped text after the other. -/
theorem literalInside?_escaped {piece : List Char} {bytes : List Nat}
    (h : Text.Escaped piece bytes) (rest : List Char) :
    TypeMap.literalInside? '"' (piece ++ rest) =
      (TypeMap.literalInside? '"' rest).map (piece ++ ·) := by
  cases h with
  | plain hslash hquote hline => exact TypeMap.literalInside?_plain hquote hline hslash rest
  | @named e _ hletter _ =>
    have hall : ∀ e ∈ Text.escapeLetters, e ≠ '\n' := by simp [Text.escapeLetters]
    exact TypeMap.literalInside?_escape (by decide) (hall e hletter) rest
  | @octal i j k hi hj hk =>
    have hall : ∀ n < 8, Text.octalDigit n ≠ '"' ∧ Text.octalDigit n ≠ '\n' ∧
        Text.octalDigit n ≠ '\\' := by decide
    obtain ⟨-, hline, -⟩ := hall i hi
    obtain ⟨hquote, hbreak, hslash⟩ := hall j hj
    obtain ⟨hquote', hbreak', hslash'⟩ := hall k hk
    simp only [List.cons_append, List.nil_append]
    rw [TypeMap.literalInside?_escape (by decide) hline,
      TypeMap.literalInside?_plain hquote hbreak hslash,
      TypeMap.literalInside?_plain hquote' hbreak' hslash']
    cases TypeMap.literalInside? '"' rest <;> rfl

theorem literalInside?_escapedText {inside : List Char} {bytes : List UInt8}
    (h : Text.EscapedText inside bytes) (rest : List Char) :
    TypeMap.literalInside? '"' (inside ++ '"' :: rest) = some inside := by
  induction h with
  | nil => exact TypeMap.literalInside?_quote rest
  | cons hpiece _ ih =>
    rw [List.append_assoc, literalInside?_escaped hpiece, ih]
    rfl

theorem spells_literal {inside : List Char} {bytes : List UInt8}
    (h : Text.EscapedText inside bytes) :
    Spells ('"' :: (inside ++ ['"'])) [.literal inside] := by
  intro post _
  have hbegin : begin '"' = ([], .literal '"' []) := by decide
  have hdrop : (inside ++ '"' :: post).drop (inside.length + 1) = post := by simp
  rw [List.cons_append, List.append_assoc, marksFrom_literal (by decide) hbegin]
  simp only [List.cons_append, List.nil_append, literalInside?_escapedText h, Option.bind_some,
    hdrop]
  rfl

end Scan

section Write

theorem Spells.colon {text : List Char} {tokens : List Token} (h : Spells text tokens)
    (colon : Bool) :
    Spells ((if colon then ": " else " " : String).toList ++ text)
      ((if colon then [.symbol ':'] else []) ++ tokens) := by
  cases colon with
  | false => exact h.blank
  | true => exact h.blank.symbol (by decide)

theorem apart_colon (colon : Bool) (rest : List Char) :
    Apart ((if colon then ": " else " " : String).toList ++ rest) := by
  cases colon with
  | false => exact apart_cons (by decide) rest
  | true => exact apart_cons (by decide) (' ' :: rest)

mutual

theorem Value.spells_render (v : Value) (h : v.isWritable) : Spells v.render.toList v.tokens := by
  cases v with
  | atom spelling => exact spells_word h
  | text content =>
    have hliteral := spells_literal (Text.escapedText_flatMap_escapeChar content.toList)
    simpa [Value.render, Value.tokens, Text.escapeKeepingUnicode] using hliteral
  | message fields =>
    have hfields := (spells_renderEach fields h).append (spells_nil.symbol (c := '}') (by decide))
      (apart_cons (by decide) [])
    have hmessage := hfields.blank.symbol (c := '{') (by decide)
    simpa [Value.render, Value.tokens] using hmessage
  | list items =>
    have hitems := (spells_renderItems items h).append (spells_nil.symbol (c := ']') (by decide))
      (apart_cons (by decide) [])
    have hlist := hitems.symbol (c := '[') (by decide)
    simpa [Value.render, Value.tokens] using hlist

theorem Field.spells_render (f : Field) (h : f.isWritable) : Spells f.render.toList f.tokens := by
  obtain ⟨name, colon, value⟩ := f
  obtain ⟨hname, hvalue⟩ := Bool.and_eq_true_iff.1 h
  have hfield := (spells_word hname).append ((value.spells_render hvalue).colon colon)
    (apart_colon colon _)
  simpa [Field.render, Field.tokens] using hfield

theorem spells_renderEach (fields : List Field) (h : areWritable fields) :
    Spells (renderEach fields).toList (tokensOf fields) := by
  cases fields with
  | nil => exact spells_nil
  | cons f rest =>
    obtain ⟨hf, hrest⟩ := Bool.and_eq_true_iff.1 h
    have hfields := (f.spells_render hf).append (spells_renderEach rest hrest).blank
      (apart_cons (by decide) _)
    simpa [renderEach, tokensOf] using hfields

theorem spells_renderItems (items : List Value) (h : areWritableItems items) :
    Spells (", ".intercalate (renderItems items)).toList (tokensOfItems items) := by
  match items, h with
  | [], _ => exact spells_nil
  | [v], h =>
    obtain ⟨hv, -⟩ := Bool.and_eq_true_iff.1 h
    simpa [renderItems, tokensOfItems] using v.spells_render hv
  | v :: w :: rest, h =>
    obtain ⟨hv, hrest⟩ := Bool.and_eq_true_iff.1 h
    have hmore := ((spells_renderItems (w :: rest) hrest).blank).symbol (c := ',') (by decide)
    have hitems := (v.spells_render hv).append hmore (apart_cons (by decide) _)
    simpa [renderItems, tokensOfItems] using hitems

end

/-- A message on one line is scanned to its tokens. -/
theorem spells_render (fields : List Field) (h : areWritable fields) :
    Spells (render fields).toList (tokensOf fields) := by
  induction fields with
  | nil => exact spells_nil
  | cons f rest ih =>
    obtain ⟨hf, hrest⟩ := Bool.and_eq_true_iff.1 h
    cases rest with
    | nil => simpa [render, tokensOf] using f.spells_render hf
    | cons g rest =>
      have hfields := (f.spells_render hf).append (ih hrest).blank (apart_cons (by decide) _)
      simpa [render, tokensOf] using hfields

theorem marks?_render {fields : List Field} (h : areWritable fields) :
    marks? (render fields) = some ((tokensOf fields).map (⟨false, ·⟩)) := by
  have hspells := spells_render fields h [] (by simp [Apart])
  rw [List.append_nil] at hspells
  rw [marks?, hspells]
  simp [marksFrom, finish, mark]

/-- Reading undoes writing. -/
theorem read?_render {fields : List Field} (h : areWritable fields) :
    read? (render fields) = some fields := by
  have htokens : tokens? (render fields) = some (tokensOf fields) := by
    rw [tokens?_eq_map_marks?, marks?_render h]
    simp [Function.comp_def]
  have hreads := readsFields_tokensOf fields fresh_nil .ended
  rw [List.append_nil] at hreads
  exact read?_eq_some_iff.2 ⟨_, htokens, hreads⟩

end Write

end FluentGen.TextFormat
