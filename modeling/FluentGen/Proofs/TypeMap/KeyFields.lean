import FluentGen.Proofs.TextFormat.Grammar
import FluentGen.Proofs.TypeMap.Spelling

/-!
Spelled keys in the tree of a text. Every field named `key` that holds a text behind a colon is
spelled by the tokens of the text, and nothing else is. A tree whose names and atoms are calm comes
from calm tokens.
-/

namespace FluentGen.TypeMap

open TextFormat

/-- The text of the key that tokens begin with. -/
def keyTextAt : List Token → List (Option String)
  | .word text :: .symbol c :: .literal inside :: rest =>
    if text = "key" ∧ c = ':' then [textOfLiterals? (inside :: (leadingLiterals rest).1)] else []
  | _ => []

/-- The texts of the keys that tokens spell. -/
def keyTexts : List Token → List (Option String)
  | [] => []
  | token :: rest => keyTextAt (token :: rest) ++ keyTexts rest

/-- Whether a value is an atom. -/
def isAtom : Value → Bool
  | .atom _ => true
  | _ => false

/-- The key that a field gives: the text of a field named `key`. -/
def keyOfField (f : Field) : List String :=
  if f.name = "key" then (f.value.text? f.colon).toList else []

mutual

/-- The keys that the fields in a value give, at any depth. -/
def keysIn : Value → List String
  | .atom _ => []
  | .text _ => []
  | .message fields => keysAmong fields
  | .list items => keysAmongItems items

@[inherit_doc keysIn]
def keysAmong : List Field → List String
  | [] => []
  | .mk name colon value :: rest =>
    keyOfField (.mk name colon value) ++ keysIn value ++ keysAmong rest

@[inherit_doc keysIn]
def keysAmongItems : List Value → List String
  | [] => []
  | value :: rest => keysIn value ++ keysAmongItems rest

end

mutual

/-- No name or atom ends with the word in front of a key, names that are this word apart, and no
atom stands in front of a field with this name. -/
def CalmValue : Value → Prop
  | .atom spelling => ¬ keyWord <:+ spelling.toList
  | .text _ => True
  | .message fields => CalmFields fields
  | .list items => CalmItems items

@[inherit_doc CalmValue]
def CalmFields : List Field → Prop
  | [] => True
  | .mk name _ value :: rest =>
    (keyWord <:+ name.toList → name = "key") ∧ CalmValue value ∧
      (isAtom value → ∀ next ∈ rest.head?, next.name ≠ "key") ∧ CalmFields rest

@[inherit_doc CalmValue]
def CalmItems : List Value → Prop
  | [] => True
  | value :: rest => CalmValue value ∧ CalmItems rest

end

theorem keyTexts_map_token (marks : List Marked) :
    keyTexts (marks.map (·.token)) = (keyMarks marks).map KeyMark.text? := by
  induction marks with
  | nil => rfl
  | cons m rest ih =>
    have hfirst : keyTextAt ((m :: rest).map (·.token)) =
        (keyAtMarks? (m :: rest)).toList.map KeyMark.text? := by
      unfold keyAtMarks?
      split
      · next text _ c _ inside more heq =>
        cases heq
        by_cases h : text = "key" ∧ c = ':'
        · simp [keyTextAt, h, KeyMark.text?]
        · simp [keyTextAt, h]
      · next hne =>
        unfold keyTextAt
        split
        · next text c inside more heq =>
          match m, rest, heq with
          | ⟨_, _⟩, ⟨_, _⟩ :: ⟨_, _⟩ :: _, heq =>
            simp only [List.map_cons, List.cons.injEq] at heq
            obtain ⟨rfl, rfl, rfl, -⟩ := heq
            exact absurd rfl (hne _ _ _ _ _ _ _)
        · rfl
    rw [keyMarks, List.map_append, ← hfirst, ← ih, List.map_cons, keyTexts]

section Spelled

theorem keyTexts_of_not_word {token : Token} (h : ∀ text, token ≠ .word text)
    (rest : List Token) : keyTexts (token :: rest) = keyTexts rest := by
  cases token with
  | word text => exact absurd rfl (h text)
  | number text => rfl
  | literal inside => rfl
  | symbol c => rfl

/-- A word without a colon behind it spells no key. -/
theorem keyTexts_word {rest : List Token} (h : rest.head? ≠ some (.symbol ':'))
    (text : String) : keyTexts (.word text :: rest) = keyTexts rest := by
  have hnone : keyTextAt (.word text :: rest) = [] := by
    unfold keyTextAt
    split
    · next text c _ _ heq =>
      cases heq
      have hcolon : c ≠ ':' := by
        rintro rfl
        exact h rfl
      exact if_neg fun hkey => hcolon hkey.2
    · rfl
  rw [keyTexts, hnone]
  rfl

theorem keyTexts_skipSeparator (tokens : List Token) :
    keyTexts (skipSeparator tokens) = keyTexts tokens := by
  unfold skipSeparator
  split
  · rw [keyTexts_of_not_word (by simp)]
  · rw [keyTexts_of_not_word (by simp)]
  · rfl

theorem keyTexts_leadingLiterals (tokens : List Token) :
    keyTexts (leadingLiterals tokens).2 = keyTexts tokens := by
  induction tokens with
  | nil => rfl
  | cons token rest ih =>
    cases token with
    | literal inside =>
      rw [keyTexts_of_not_word (by simp), ← ih]
      rfl
    | word text => rfl
    | number text => rfl
    | symbol c => rfl

/-- Behind a name and a colon a value gives the key that its tokens spell. -/
theorem keyTextAt_of_readsValue {start behind : List Token} {value : Value}
    (h : ReadsValue start value behind) (name : String) :
    keyTextAt (.word name :: .symbol ':' :: start) =
      (keyOfField (.mk name true value)).map some := by
  have hnone : ∀ value : Value, value.text? true = none →
      keyOfField (.mk name true value) = [] := by
    intro value hvalue
    by_cases hname : name = "key"
    · simp [keyOfField, Field.name, Field.value, Field.colon, hvalue]
    · simp [keyOfField, Field.name, hname]
  cases h with
  | @text inside more content tokens _ hmore hcontent =>
    by_cases hname : name = "key"
    · simp [keyTextAt, keyOfField, Field.name, Field.value, Field.colon, Value.text?, hname,
        hmore, hcontent]
    · simp [keyTextAt, keyOfField, Field.name, hname]
  | word => exact (congrArg (List.map some) (hnone _ rfl)).symm
  | number => exact (congrArg (List.map some) (hnone _ rfl)).symm
  | symbol _ _ => exact (congrArg (List.map some) (hnone _ rfl)).symm
  | message _ _ => exact (congrArg (List.map some) (hnone _ rfl)).symm
  | emptyList => exact (congrArg (List.map some) (hnone _ rfl)).symm
  | list _ _ => exact (congrArg (List.map some) (hnone _ rfl)).symm

/-- Without a colon a field gives no key. -/
theorem keyOfField_false (name : String) (value : Value) :
    keyOfField (.mk name false value) = [] := by
  have hnone : value.text? false = none := by
    cases value with
    | text content => rfl
    | atom spelling => rfl
    | message fields => rfl
    | list items => rfl
  simp [keyOfField, Field.value, Field.colon, hnone]

/-- A closing bracket, where one is expected. -/
def IsBracket (close : Option Char) : Prop :=
  ∀ c ∈ close, c = '}' ∨ c = '>'

theorem isBracket_of_closing? {c close : Char} (h : closing? c = some close) :
    IsBracket (some close) := by
  intro d hd
  cases hd
  unfold closing? at h
  split at h
  · cases h
    exact Or.inl rfl
  · cases h
    exact Or.inr rfl
  · cases h

/-- Fields never begin with a colon. -/
theorem head?_ne_colon {close : Option Char} (hclose : IsBracket close) {behind rest : List Token}
    {fields : List Field} (h : ReadsFields close (skipSeparator behind) fields rest) :
    behind.head? ≠ some (.symbol ':') := by
  intro hhead
  obtain ⟨more, rfl⟩ := List.head?_eq_some_iff.1 hhead
  have hskip : skipSeparator (.symbol ':' :: more) = .symbol ':' :: more := by
    simp [skipSeparator]
  rw [hskip] at h
  cases h with
  | closed =>
    rcases hclose ':' rfl with h | h
    · cases h
    · cases h

mutual

theorem keyTexts_of_readsFields {close : Option Char} (hclose : IsBracket close)
    {tokens rest : List Token} {fields : List Field}
    (h : ReadsFields close tokens fields rest) :
    keyTexts tokens = (keysAmong fields).map some ++ keyTexts rest := by
  cases h with
  | ended => rfl
  | closed =>
    rw [keyTexts_of_not_word (by simp)]
    rfl
  | @field _ name colon value fields tokens start behind _ hcolon hvalue hfields =>
    have hnext := head?_ne_colon hclose hfields
    have hkeys := keyTexts_of_readsValue hvalue hnext
    have hrest := keyTexts_of_readsFields hclose hfields
    rw [keyTexts_skipSeparator] at hrest
    unfold leadingColon at hcolon
    split at hcolon
    · cases hcolon
      rw [keyTexts, keyTextAt_of_readsValue hvalue, keyTexts_of_not_word (by simp), hkeys, hrest,
        keysAmong]
      simp only [List.map_append, List.append_assoc]
    · next hne =>
      cases hcolon
      have hstart : tokens.head? ≠ some (.symbol ':') := by
        intro hhead
        obtain ⟨more, rfl⟩ := List.head?_eq_some_iff.1 hhead
        exact hne more rfl
      rw [keyTexts_word hstart, hkeys, hrest, keysAmong, keyOfField_false]
      simp only [List.nil_append, List.map_append, List.append_assoc]

theorem keyTexts_of_readsValue {tokens rest : List Token} {value : Value}
    (h : ReadsValue tokens value rest) (hrest : rest.head? ≠ some (.symbol ':')) :
    keyTexts tokens = (keysIn value).map some ++ keyTexts rest := by
  cases h with
  | word =>
    rw [keyTexts_word hrest]
    rfl
  | number =>
    rw [keyTexts_of_not_word (by simp)]
    rfl
  | symbol _ _ =>
    rw [keyTexts_of_not_word (by simp)]
    rfl
  | @text _ _ _ tokens _ hmore _ =>
    have hliterals := keyTexts_leadingLiterals tokens
    rw [hmore] at hliterals
    rw [keyTexts_of_not_word (by simp), hliterals]
    rfl
  | message hclose hfields =>
    rw [keyTexts_of_not_word (by simp), keysIn,
      keyTexts_of_readsFields (isBracket_of_closing? hclose) hfields]
  | emptyList =>
    rw [keyTexts_of_not_word (by simp), keyTexts_of_not_word (by simp)]
    rfl
  | list _ hitems =>
    rw [keyTexts_of_not_word (by simp), keysIn, keyTexts_of_readsItems hitems]

theorem keyTexts_of_readsItems {tokens rest : List Token} {items : List Value}
    (h : ReadsItems tokens items rest) :
    keyTexts tokens = (keysAmongItems items).map some ++ keyTexts rest := by
  cases h with
  | last hvalue =>
    rw [keyTexts_of_readsValue hvalue (by simp), keyTexts_of_not_word (by simp), keysAmongItems,
      keysAmongItems, List.append_nil]
  | item hvalue hitems =>
    rw [keyTexts_of_readsValue hvalue (by simp), keyTexts_of_not_word (by simp),
      keyTexts_of_readsItems hitems, keysAmongItems, List.map_append, List.append_assoc]

end

end Spelled

section CalmTokens

theorem calm_of_not_symbol (token : Token) (hcalm : CalmToken token)
    (h : ∀ c, token ≠ .symbol c) {rest : List Token} (hrest : Calm rest) :
    Calm (token :: rest) := by
  refine ⟨hcalm, ?_, hrest⟩
  intro next _
  cases token with
  | symbol c => exact absurd rfl (h c)
  | word text => trivial
  | number text => trivial
  | literal inside => trivial

theorem calm_of_not_isWordLike {c : Char} (h : Text.isWordLike c = false) {rest : List Token}
    (hrest : Calm rest) : Calm (.symbol c :: rest) := by
  refine ⟨trivial, ?_, hrest⟩
  intro next _
  cases next with
  | word text =>
    intro hlike
    rw [h] at hlike
    cases hlike
  | number text => trivial
  | literal inside => trivial
  | symbol c => trivial

/-- A symbol may stand in front of everything but a key. -/
theorem calm_symbol {c : Char} {rest : List Token} (h : rest.head? ≠ some (.word "key"))
    (hrest : Calm rest) : Calm (.symbol c :: rest) := by
  refine ⟨trivial, ?_, hrest⟩
  intro next hnext
  cases next with
  | word text =>
    rintro - rfl
    exact h hnext
  | number text => trivial
  | literal inside => trivial
  | symbol c => trivial

theorem calm_skipSeparator {tokens : List Token} (h : Calm (skipSeparator tokens)) :
    Calm tokens := by
  unfold skipSeparator at h
  split at h
  · exact calm_of_not_isWordLike (by decide) h
  · exact calm_of_not_isWordLike (by decide) h
  · exact h

theorem calm_leadingLiterals {tokens : List Token} (h : Calm (leadingLiterals tokens).2) :
    Calm tokens := by
  induction tokens with
  | nil => exact h
  | cons token rest ih =>
    cases token with
    | literal inside => exact calm_of_not_symbol (.literal inside) trivial (by simp) (ih h)
    | word text => exact h
    | number text => exact h
    | symbol c => exact h

theorem isWordLike_of_closing? {c close : Char} (h : closing? c = some close) :
    Text.isWordLike c = false := by
  unfold closing? at h
  split at h
  · decide
  · decide
  · cases h

/-- What stands behind a value is no key, if no field with this name comes next. -/
theorem head?_ne_key {close : Option Char} {behind rest : List Token} {fields : List Field}
    (h : ReadsFields close (skipSeparator behind) fields rest)
    (hfields : ∀ next ∈ fields.head?, next.name ≠ "key") :
    behind.head? ≠ some (.word "key") := by
  intro hhead
  obtain ⟨more, rfl⟩ := List.head?_eq_some_iff.1 hhead
  cases h with
  | field _ _ _ => exact hfields _ rfl rfl

mutual

theorem calm_of_readsFields {close : Option Char} (hclose : IsBracket close)
    {tokens rest : List Token} {fields : List Field}
    (h : ReadsFields close tokens fields rest) (hcalm : CalmFields fields) (hrest : Calm rest) :
    Calm tokens := by
  cases h with
  | ended => exact hrest
  | @closed c rest =>
    refine calm_of_not_isWordLike ?_ hrest
    rcases hclose c rfl with rfl | rfl
    · decide
    · decide
  | @field _ name colon value fields tokens start behind _ hcolon hvalue hfields =>
    obtain ⟨hname, hcalmValue, hnext, hcalmRest⟩ := hcalm
    have hbehind := calm_skipSeparator (calm_of_readsFields hclose hfields hcalmRest hrest)
    have hstart := calm_of_readsValue hvalue hcalmValue
      (fun hatom => head?_ne_key hfields (hnext hatom)) hbehind
    refine calm_of_not_symbol (.word name) hname (by simp) ?_
    unfold leadingColon at hcolon
    split at hcolon
    · cases hcolon
      exact calm_of_not_isWordLike (by decide) hstart
    · cases hcolon
      exact hstart

theorem calm_of_readsValue {tokens rest : List Token} {value : Value}
    (h : ReadsValue tokens value rest) (hcalm : CalmValue value)
    (hnext : isAtom value → rest.head? ≠ some (.word "key")) (hrest : Calm rest) :
    Calm tokens := by
  cases h with
  | @word text _ =>
    exact calm_of_not_symbol (.word text) (fun hends => absurd hends hcalm) (by simp) hrest
  | @number text _ => exact calm_of_not_symbol (.number text) hcalm (by simp) hrest
  | symbol _ _ => exact calm_symbol (hnext rfl) hrest
  | @text inside _ _ tokens _ hmore _ =>
    have htokens : Calm tokens := by
      refine calm_leadingLiterals ?_
      rw [hmore]
      exact hrest
    exact calm_of_not_symbol (.literal inside) trivial (by simp) htokens
  | message hclose hfields =>
    refine calm_of_not_isWordLike (isWordLike_of_closing? hclose) ?_
    exact calm_of_readsFields (isBracket_of_closing? hclose) hfields hcalm hrest
  | emptyList =>
    exact calm_of_not_isWordLike (by decide) (calm_of_not_isWordLike (by decide) hrest)
  | list _ hitems =>
    exact calm_of_not_isWordLike (by decide) (calm_of_readsItems hitems hcalm hrest)

theorem calm_of_readsItems {tokens rest : List Token} {items : List Value}
    (h : ReadsItems tokens items rest) (hcalm : CalmItems items) (hrest : Calm rest) :
    Calm tokens := by
  cases h with
  | last hvalue =>
    refine calm_of_readsValue hvalue hcalm.1 (by simp) ?_
    exact calm_of_not_isWordLike (by decide) hrest
  | item hvalue hitems =>
    refine calm_of_readsValue hvalue hcalm.1 (by simp) ?_
    exact calm_of_not_isWordLike (by decide) (calm_of_readsItems hitems hcalm.2 hrest)

end

end CalmTokens

/-- In a text with a calm tree the keys are those of the tree, and the pass finds the ones that no
comment hides. -/
theorem keyMarks_of_read? {text : String} {fields : List Field}
    (hread : TextFormat.read? text = some fields) (hcalm : CalmFields fields) :
    ∃ marks, marks? text = some marks ∧
      (keyMarks marks).map KeyMark.text? = (keysAmong fields).map some ∧
      spelledKeys text = (plainSpellings (keyMarks marks)).map String.ofList := by
  obtain ⟨tokens, htokens, hreads⟩ := read?_eq_some_iff.1 hread
  have hclose : IsBracket none := by
    intro c hc
    cases hc
  rw [tokens?_eq_map_marks?] at htokens
  obtain ⟨marks, hmarks, rfl⟩ := Option.map_eq_some_iff.1 htokens
  refine ⟨marks, hmarks, ?_, ?_⟩
  · rw [← keyTexts_map_token, keyTexts_of_readsFields hclose hreads]
    exact List.append_nil _
  · exact spelledKeys_eq hmarks (calm_of_readsFields hclose hreads hcalm trivial)

end FluentGen.TypeMap
