import FluentGen.TextFormat.Tree

/-!
The grammar of the text format: what fields, a value or the items of a list take off the front of
a sequence of tokens. The readers accept exactly what the grammar does, and twice as much fuel as
there are tokens is always enough for them.
-/

namespace FluentGen.TextFormat

mutual

/-- The tokens begin with fields up to the given closing bracket, or are fields to their end
without one. -/
inductive ReadsFields : Option Char → List Token → List Field → List Token → Prop where
  | ended : ReadsFields none [] [] []
  | closed {c : Char} {rest : List Token} : ReadsFields (some c) (.symbol c :: rest) [] rest
  | field {close : Option Char} {name : String} {colon : Bool} {value : Value}
      {fields : List Field} {tokens start behind rest : List Token}
      (hcolon : leadingColon tokens = (colon, start))
      (hvalue : ReadsValue start value behind)
      (hfields : ReadsFields close (skipSeparator behind) fields rest) :
    ReadsFields close (.word name :: tokens) (.mk name colon value :: fields) rest

/-- The tokens begin with a value. -/
inductive ReadsValue : List Token → Value → List Token → Prop where
  | word {text : String} {rest : List Token} : ReadsValue (.word text :: rest) (.atom text) rest
  | number {text : String} {rest : List Token} :
    ReadsValue (.number text :: rest) (.atom text) rest
  | symbol {c : Char} {rest : List Token} (hlist : c ≠ '[') (hclose : closing? c = none) :
    ReadsValue (.symbol c :: rest) (.atom (String.singleton c)) rest
  | text {inside : List Char} {more : List (List Char)} {content : String}
      {tokens rest : List Token} (hmore : leadingLiterals tokens = (more, rest))
      (hcontent : textOfLiterals? (inside :: more) = some content) :
    ReadsValue (.literal inside :: tokens) (.text content) rest
  | message {c close : Char} {fields : List Field} {tokens rest : List Token}
      (hclose : closing? c = some close)
      (hfields : ReadsFields (some close) tokens fields rest) :
    ReadsValue (.symbol c :: tokens) (.message fields) rest
  | emptyList {rest : List Token} :
    ReadsValue (.symbol '[' :: .symbol ']' :: rest) (.list []) rest
  | list {items : List Value} {tokens rest : List Token}
      (hitem : tokens.head? ≠ some (.symbol ']')) (hitems : ReadsItems tokens items rest) :
    ReadsValue (.symbol '[' :: tokens) (.list items) rest

/-- The tokens begin with the items of a list and its closing bracket. -/
inductive ReadsItems : List Token → List Value → List Token → Prop where
  | last {value : Value} {tokens rest : List Token}
      (hvalue : ReadsValue tokens value (.symbol ']' :: rest)) : ReadsItems tokens [value] rest
  | item {value : Value} {items : List Value} {tokens behind rest : List Token}
      (hvalue : ReadsValue tokens value (.symbol ',' :: behind))
      (hitems : ReadsItems behind items rest) : ReadsItems tokens (value :: items) rest

end

section Soundness

/-- Whatever the readers accept with an amount of fuel is grammatical. -/
structure AcceptsGrammar (fuel : Nat) : Prop where
  fields : ∀ {close tokens fields rest}, readFields fuel close tokens = some (fields, rest) →
    ReadsFields close tokens fields rest
  value : ∀ {tokens value rest}, readValue fuel tokens = some (value, rest) →
    ReadsValue tokens value rest
  items : ∀ {tokens items rest}, readItems fuel tokens = some (items, rest) →
    ReadsItems tokens items rest

variable {fuel : Nat}

theorem readsFields_of_succ (ih : AcceptsGrammar fuel) {close : Option Char}
    {tokens rest : List Token} {fields : List Field}
    (h : readFields (fuel + 1) close tokens = some (fields, rest)) :
    ReadsFields close tokens fields rest := by
  cases tokens with
  | nil =>
    simp only [readFields] at h
    split at h
    · next hclose =>
      rw [Option.isNone_iff_eq_none] at hclose
      cases h
      exact hclose ▸ .ended
    · cases h
  | cons token tokens =>
    cases token with
    | symbol c =>
      simp only [readFields] at h
      split at h
      · next hclose =>
        cases h
        exact hclose ▸ .closed
      · cases h
    | word name =>
      simp only [readFields, Option.bind_eq_bind, Option.bind_eq_some_iff, Prod.exists] at h
      obtain ⟨value, behind, hvalue, fields, last, hfields, h⟩ := h
      cases h
      exact .field rfl (ih.value hvalue) (ih.fields hfields)
    | number text => simp [readFields] at h
    | literal inside => simp [readFields] at h

/-- A symbol begins a list, a message, or stands for itself. -/
theorem readsValue_symbol (ih : AcceptsGrammar fuel) {c : Char} {tokens rest : List Token}
    {value : Value} (h : readValue (fuel + 1) (.symbol c :: tokens) = some (value, rest)) :
    ReadsValue (.symbol c :: tokens) value rest := by
  simp only [readValue] at h
  split at h
  · next hlist =>
    subst hlist
    split at h
    · cases h
      exact .emptyList
    · next hitem =>
      simp only [Option.bind_eq_bind, Option.bind_eq_some_iff, Prod.exists] at h
      obtain ⟨items, last, hitems, h⟩ := h
      cases h
      refine .list ?_ (ih.items hitems)
      intro hhead
      obtain ⟨tail, rfl⟩ := List.head?_eq_some_iff.1 hhead
      exact hitem tail rfl
  · next hlist =>
    split at h
    · next close hclose =>
      simp only [Option.bind_eq_bind, Option.bind_eq_some_iff, Prod.exists] at h
      obtain ⟨fields, last, hfields, h⟩ := h
      cases h
      exact .message hclose (ih.fields hfields)
    · next hclose =>
      cases h
      exact .symbol hlist hclose

theorem readsValue_of_succ (ih : AcceptsGrammar fuel) {tokens rest : List Token} {value : Value}
    (h : readValue (fuel + 1) tokens = some (value, rest)) : ReadsValue tokens value rest := by
  cases tokens with
  | nil => simp [readValue] at h
  | cons token tokens =>
    cases token with
    | word text =>
      simp only [readValue] at h
      cases h
      exact .word
    | number text =>
      simp only [readValue] at h
      cases h
      exact .number
    | literal inside =>
      simp only [readValue, Option.bind_eq_bind, Option.bind_eq_some_iff] at h
      obtain ⟨content, hcontent, h⟩ := h
      cases h
      exact .text rfl hcontent
    | symbol c => exact readsValue_symbol ih h

theorem readsItems_of_succ (ih : AcceptsGrammar fuel) {tokens rest : List Token}
    {items : List Value} (h : readItems (fuel + 1) tokens = some (items, rest)) :
    ReadsItems tokens items rest := by
  simp only [readItems, Option.bind_eq_bind, Option.bind_eq_some_iff, Prod.exists] at h
  obtain ⟨value, behind, hvalue, h⟩ := h
  have hvalue := ih.value hvalue
  split at h
  · cases h
    exact .last hvalue
  · simp only [Option.bind_eq_some_iff, Prod.exists] at h
    obtain ⟨items, last, hitems, h⟩ := h
    cases h
    exact .item hvalue (ih.items hitems)
  · cases h

/-- Whatever the readers accept is grammatical. Every reader hands one less of the fuel to the
readers that it calls. -/
theorem acceptsGrammar (fuel : Nat) : AcceptsGrammar fuel := by
  induction fuel with
  | zero =>
    refine ⟨?_, ?_, ?_⟩
    · intro close tokens fields rest h
      simp [readFields] at h
    · intro tokens value rest h
      simp [readValue] at h
    · intro tokens items rest h
      simp [readItems] at h
  | succ fuel ih => exact ⟨readsFields_of_succ ih, readsValue_of_succ ih, readsItems_of_succ ih⟩

end Soundness

section Progress

/-- Without a closing bracket the fields go to the end. -/
theorem ReadsFields.rest_eq_nil {tokens rest : List Token} {fields : List Field} :
    ReadsFields none tokens fields rest → rest = []
  | .ended => rfl
  | .field _ _ hfields => hfields.rest_eq_nil

theorem length_le_of_leadingColon {tokens start : List Token} {colon : Bool}
    (h : leadingColon tokens = (colon, start)) : start.length ≤ tokens.length := by
  unfold leadingColon at h
  split at h
  · cases h
    exact Nat.le_succ _
  · cases h
    exact Nat.le_refl _

theorem length_skipSeparator_le (tokens : List Token) :
    (skipSeparator tokens).length ≤ tokens.length := by
  unfold skipSeparator
  split
  · rw [List.length_cons]
    omega
  · rw [List.length_cons]
    omega
  · exact Nat.le_refl _

theorem length_leadingLiterals_le (tokens : List Token) :
    (leadingLiterals tokens).2.length ≤ tokens.length := by
  induction tokens with
  | nil => exact Nat.le_refl _
  | cons token rest ih =>
    cases token with
    | literal inside => exact Nat.le_succ_of_le ih
    | word text => exact Nat.le_refl _
    | number text => exact Nat.le_refl _
    | symbol c => exact Nat.le_refl _

mutual

theorem ReadsFields.length_le {close : Option Char} {tokens rest : List Token}
    {fields : List Field} (h : ReadsFields close tokens fields rest) :
    rest.length ≤ tokens.length := by
  cases h with
  | ended => exact Nat.le_refl _
  | closed => exact Nat.le_succ _
  | @field _ _ _ _ _ tokens start behind _ hcolon hvalue hfields =>
    have hstart := length_le_of_leadingColon hcolon
    have hbehind := hvalue.length_lt
    have hskip := length_skipSeparator_le behind
    have hrest := hfields.length_le
    rw [List.length_cons]
    omega

/-- A value takes at least one token. -/
theorem ReadsValue.length_lt {tokens rest : List Token} {value : Value}
    (h : ReadsValue tokens value rest) : rest.length < tokens.length := by
  cases h with
  | word => exact Nat.lt_succ_self _
  | number => exact Nat.lt_succ_self _
  | symbol => exact Nat.lt_succ_self _
  | @text _ _ _ tokens _ hmore _ =>
    have hrest := length_leadingLiterals_le tokens
    rw [hmore] at hrest
    exact Nat.lt_succ_of_le hrest
  | message _ hfields => exact Nat.lt_succ_of_le hfields.length_le
  | emptyList =>
    simp only [List.length_cons]
    omega
  | list _ hitems => exact Nat.lt_succ_of_lt hitems.length_lt

theorem ReadsItems.length_lt {tokens rest : List Token} {items : List Value}
    (h : ReadsItems tokens items rest) : rest.length < tokens.length := by
  cases h with
  | last hvalue =>
    have hbehind := hvalue.length_lt
    rw [List.length_cons] at hbehind
    omega
  | item hvalue hitems =>
    have hbehind := hvalue.length_lt
    have hrest := hitems.length_lt
    rw [List.length_cons] at hbehind
    omega

end

end Progress

section Complete

mutual

/-- Grammatical fields are read. -/
theorem ReadsFields.readFields_eq {close : Option Char} {tokens rest : List Token}
    {fields : List Field} (h : ReadsFields close tokens fields rest) {fuel : Nat}
    (hfuel : 2 * tokens.length + 1 ≤ fuel) :
    readFields fuel close tokens = some (fields, rest) := by
  obtain ⟨fuel, rfl⟩ := Nat.exists_eq_succ_of_ne_zero (Nat.ne_zero_of_lt hfuel)
  cases h with
  | ended => rfl
  | closed => simp [readFields]
  | @field _ _ _ _ _ tokens start behind _ hcolon hvalue hfields =>
    have hstart := length_le_of_leadingColon hcolon
    have hbehind := hvalue.length_lt
    have hskip := length_skipSeparator_le behind
    rw [List.length_cons] at hfuel
    have hread : readValue fuel start = some (_, behind) := hvalue.readValue_eq (by omega)
    have hmore : readFields fuel close (skipSeparator behind) = some (_, rest) :=
      hfields.readFields_eq (by omega)
    simp [readFields, hcolon, hread, hmore]

/-- A grammatical value is read. -/
theorem ReadsValue.readValue_eq {tokens rest : List Token} {value : Value}
    (h : ReadsValue tokens value rest) {fuel : Nat} (hfuel : 2 * tokens.length ≤ fuel) :
    readValue fuel tokens = some (value, rest) := by
  have hpos : fuel ≠ 0 := by
    have := h.length_lt
    omega
  obtain ⟨fuel, rfl⟩ := Nat.exists_eq_succ_of_ne_zero hpos
  cases h with
  | word => rfl
  | number => rfl
  | symbol hlist hclose => simp [readValue, hlist, hclose]
  | text hmore hcontent => simp [readValue, hmore, hcontent]
  | message hclose hfields =>
    rw [List.length_cons] at hfuel
    have hread : readFields fuel _ _ = _ := hfields.readFields_eq (by omega)
    have hlist : ∀ c close, closing? c = some close → c ≠ '[' := by
      rintro c close h rfl
      simp [closing?] at h
    simp [readValue, hlist _ _ hclose, hclose, hread]
  | emptyList => simp [readValue]
  | @list items tokens _ hitem hitems =>
    rw [List.length_cons] at hfuel
    have hread : readItems fuel _ = _ := hitems.readItems_eq (by omega)
    simp only [readValue, if_true]
    split
    · exact absurd rfl hitem
    · simp [hread]

/-- Grammatical items are read. -/
theorem ReadsItems.readItems_eq {tokens rest : List Token} {items : List Value}
    (h : ReadsItems tokens items rest) {fuel : Nat} (hfuel : 2 * tokens.length + 1 ≤ fuel) :
    readItems fuel tokens = some (items, rest) := by
  obtain ⟨fuel, rfl⟩ := Nat.exists_eq_succ_of_ne_zero (Nat.ne_zero_of_lt hfuel)
  cases h with
  | last hvalue =>
    have hread : readValue fuel _ = _ := hvalue.readValue_eq (by omega)
    simp [readItems, hread]
  | item hvalue hitems =>
    have hbehind := hvalue.length_lt
    rw [List.length_cons] at hbehind
    have hread : readValue fuel _ = _ := hvalue.readValue_eq (by omega)
    have hmore : readItems fuel _ = _ := hitems.readItems_eq (by omega)
    simp [readItems, hread, hmore]

end

end Complete

/-- A text is read exactly if its tokens are fields, and it is read as these. -/
theorem read?_eq_some_iff {text : String} {fields : List Field} :
    read? text = some fields ↔ ∃ tokens, tokens? text = some tokens ∧
      ReadsFields none tokens fields [] := by
  simp only [read?, Option.bind_eq_bind, Option.bind_eq_some_iff, Prod.exists]
  constructor
  · rintro ⟨tokens, htokens, fields, rest, hfields, h⟩
    cases h
    have hreads := (acceptsGrammar _).fields hfields
    exact ⟨tokens, htokens, hreads.rest_eq_nil ▸ hreads⟩
  · rintro ⟨tokens, htokens, hreads⟩
    exact ⟨tokens, htokens, fields, [], hreads.readFields_eq (by omega), rfl⟩

end FluentGen.TextFormat
