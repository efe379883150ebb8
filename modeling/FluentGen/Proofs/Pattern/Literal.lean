import FluentGen.Pattern.Match
import FluentGen.Pattern.Reader

/-!
Texts that are their own regular expressions. A text without metacharacters is read as the sequence
of its characters, and this sequence matches the text and nothing else. A set that is repeated as
often as it can be takes all characters up to the first one that it does not accept.
-/

namespace FluentGen.Pattern

/-- The characters that may stand for something else than themselves outside of a set. -/
def metacharacters : List Char :=
  ['.', '^', '$', '*', '+', '?', '\x7b', '[', '\\', '|', '(', ')']

/-- A text that is its own regular expression. -/
def IsLiteral (text : List Char) : Prop :=
  ∀ c ∈ text, c ∉ metacharacters

instance (text : List Char) : Decidable (IsLiteral text) :=
  List.decidableBAll _ text

/-- The items that the characters of a text are read as, the last one first. -/
def literals (text : List Char) : Items :=
  (text.map fun c => (.item, literal {} c.toNat)).reverse

theorem literals_cons (c : Char) (text : List Char) :
    literals (c :: text) = literals text ++ [(.item, literal {} c.toNat)] := by
  simp [literals]

namespace Read

variable {α β : Type} {state next : ReadState} {c : Char} {rest : List Char}

/-- A step whose result is known is followed by what comes behind it. -/
theorem bind_of_eq {step : Read α} {a : α} (h : step state = some (a, next)) (f : α → Read β) :
    (step >>= f) state = f a next := by
  simp [bind, StateT.bind, h]

theorem get_eq (state : ReadState) : (get : Read ReadState) state = some (state, state) := rfl

theorem peek?_eq (state : ReadState) : peek? state = some (state.rest.head?, state) := rfl

theorem take_cons (h : state.rest = c :: rest) : take state = some (c, { state with rest }) := by
  rw [take, bind_of_eq (get_eq state), h]
  rfl

/-- What is done with a character that has been looked at and is then taken. -/
theorem peek_take {k : Option Char → Read α} {f : Char → Read α} (hrest : state.rest = c :: rest)
    (hk : k (some c) = (take >>= f)) : (peek? >>= k) state = f c { state with rest } := by
  rw [bind_of_eq (peek?_eq state), hrest, List.head?_cons, hk, bind_of_eq (take_cons hrest)]

theorem accept_cons (h : state.rest = c :: rest) :
    accept c state = some (true, { state with rest }) := by
  rw [accept, bind_of_eq (get_eq state), h]
  dsimp only
  rw [if_pos rfl]
  rfl

theorem accept_of_head?_ne (h : state.rest.head? ≠ some c) :
    accept c state = some (false, state) := by
  rw [accept, bind_of_eq (get_eq state)]
  cases hrest : state.rest with
  | nil => rfl
  | cons d rest =>
    have hne : c ≠ d := by
      rintro rfl
      exact h (by rw [hrest, List.head?_cons])
    simp only [if_neg hne]
    rfl

theorem expect_cons (h : state.rest = c :: rest) :
    expect c state = some ((), { state with rest }) := by
  rw [expect, bind_of_eq (accept_cons h)]
  rfl

end Read

section Reading

variable {fuel : Nat} {c : Char} {text rest : List Char} {done : Items} {state : ReadState}

theorem items_literal (hc : c ∉ metacharacters) (hrest : state.rest = c :: rest) :
    items (fuel + 1) {} done state =
      items fuel {} ((.item, literal {} c.toNat) :: done) { state with rest } := by
  simp only [metacharacters, List.mem_cons, not_or] at hc
  rw [items, Read.peek_take hrest (if_neg (by simp [hc]))]
  simp [hc]

theorem items_group (hrest : state.rest = '(' :: rest) {p : Pattern} {next : ReadState}
    (hgroup : group fuel {} { state with rest } = some (some p, next)) :
    items (fuel + 1) {} done state = items fuel {} ((.item, p) :: done) next := by
  rw [items, Read.peek_take hrest (if_neg (by decide))]
  simp [Read.bind_of_eq hgroup]

theorem repeatLast_atEnd {least : Nat} {most : Option Nat} {p : Pattern}
    (hrest : state.rest = []) :
    repeatLast least most ((.item, p) :: done) state =
      some ((.repeated, .loop least most .greedy p) :: done, state) := by
  have hnot (d : Char) : Read.accept d state = some (false, state) :=
    Read.accept_of_head?_ne (by simp [hrest])
  have hgreed : greed state = some (.greedy, state) := by
    rw [greed, Read.bind_of_eq (hnot '?'), if_neg Bool.false_ne_true, Read.bind_of_eq (hnot '+')]
    rfl
  rw [repeatLast, if_neg (by decide)]
  exact Read.bind_of_eq hgreed _

/-- A star that ends the expression repeats the last item as often as it can. -/
theorem items_star {p : Pattern} (hrest : state.rest = ['*']) :
    items (fuel + 1) {} ((.item, p) :: done) state =
      items fuel {} ((.repeated, .loop 0 none .greedy p) :: done) { state with rest := [] } := by
  rw [items, Read.peek_take hrest (if_neg (by decide))]
  have hrepeat : repeatLast 0 none ((.item, p) :: done) { state with rest := [] } =
      some ((.repeated, .loop 0 none .greedy p) :: done, { state with rest := [] }) :=
    repeatLast_atEnd rfl
  simp [Read.bind_of_eq hrepeat]

/-- A sequence ends before a bar, a closing parenthesis or the end. -/
theorem items_end (hrest : ∀ c ∈ state.rest.head?, c = '|' ∨ c = ')') :
    items (fuel + 1) {} done state = some (sequence done, state) := by
  rw [items, Read.bind_of_eq (Read.peek?_eq state)]
  cases hhead : state.rest.head? with
  | none => rfl
  | some c =>
    dsimp only
    rw [if_pos (by simpa using hrest c hhead)]
    rfl

theorem items_literals (htext : IsLiteral text) (hrest : state.rest = text ++ rest) :
    items (fuel + text.length) {} done state =
      items fuel {} (literals text ++ done) { state with rest } := by
  induction text generalizing done state with
  | nil =>
    rw [List.nil_append] at hrest
    subst hrest
    rfl
  | cons c text ih =>
    have hbehind : IsLiteral text := fun d hd => htext d (List.mem_cons_of_mem c hd)
    rw [List.length_cons, ← Nat.add_assoc, items_literal (htext c List.mem_cons_self) hrest,
      ih hbehind rfl, literals_cons, List.append_assoc]
    rfl

/-- Where no bar follows a sequence, it has no alternative. -/
theorem alternatives_of_items {p : Pattern} {next : ReadState}
    (hitems : items fuel {} [] state = some (p, next)) (hbar : next.rest.head? ≠ some '|') :
    alternatives (fuel + 1) {} state = some (p, next) := by
  rw [alternatives, Read.bind_of_eq hitems, Read.bind_of_eq (Read.accept_of_head?_ne hbar)]
  rfl

theorem group_literals (htext : IsLiteral text)
    (hrest : state.rest = '?' :: ':' :: (text ++ ')' :: rest)) :
    group (fuel + text.length + 3) {} state =
      some (some (sequence (literals text)), { state with rest }) := by
  have hitems : items (fuel + text.length + 1) {} [] { state with rest := text ++ ')' :: rest } =
      some (sequence (literals text), { state with rest := ')' :: rest }) := by
    rw [Nat.add_right_comm, items_literals htext rfl, List.append_nil, items_end (by simp)]
  have hinside := alternatives_of_items hitems (by simp)
  rw [group, Read.bind_of_eq (Read.accept_cons hrest), if_pos rfl,
    Read.bind_of_eq (Read.take_cons rfl), if_neg (by decide), if_pos rfl,
    Read.bind_of_eq hinside, Read.bind_of_eq (Read.expect_cons rfl)]
  rfl

/-- A text in a group, and behind it any number of a character, is read as it is written. -/
theorem read?_grouped (htext : IsLiteral text) (hc : c ∉ metacharacters) :
    read? (String.ofList ('(' :: '?' :: ':' :: (text ++ [')', c, '*']))) =
      some (.seq (sequence (literals text)) (.loop 0 none .greedy (literal {} c.toNat))) := by
  have hitems (fuel : Nat) :
      items (fuel + text.length + 3 + 1) {} []
          { rest := '(' :: '?' :: ':' :: (text ++ [')', c, '*']) } =
        some (.seq (sequence (literals text)) (.loop 0 none .greedy (literal {} c.toNat)),
          { rest := [] }) := by
    rw [items_group rfl (group_literals htext rfl), items_literal hc rfl, items_star rfl,
      items_end (by simp)]
    rfl
  have hfuel : 4 * (text.length + 6) + 8 = 3 * text.length + 27 + text.length + 3 + 1 + 1 := by
    omega
  have hread := alternatives_of_items (hitems (3 * text.length + 27)) (by simp)
  rw [← hfuel] at hread
  simp [read?, StateT.run, hread]

end Reading

section Running

variable {s : Place} {rest : Rest}

/-- The item that has been read first is matched first. -/
theorem run_sequence_concat (items : Items) (item : Repeatable × Pattern) :
    (sequence (items ++ [item])).run s rest =
      item.2.run s fun t => (sequence items).run t rest := by
  rw [sequence, List.foldl_append, List.foldl_cons, List.foldl_nil, ← sequence]
  split
  · next heq =>
    rw [heq]
    rfl
  · rfl

theorem holds_single (c d : Char) : (CharSet.single c).holds d = decide (d = c) := by
  rw [Bool.eq_iff_iff, decide_eq_true_eq, ← Char.toNat_inj]
  simp only [CharSet.single, CharSet.holds, CharSet.lists, List.any_cons, List.any_nil,
    Bool.or_false, Bool.false_eq_true, if_false, bne_iff_ne, ne_eq, Bool.not_eq_false,
    Bool.and_eq_true, decide_eq_true_eq]
  omega

theorem literal_eq_one (c : Char) : literal {} c.toNat = .one (.single c) := rfl

/-- The characters of a text match it, one after the other. -/
theorem run_literals (text : List Char) :
    (sequence (literals text)).run s rest = (s.skip? (· == ·) text).bind rest := by
  induction text generalizing s with
  | nil => rfl
  | cons c text ih =>
    rw [literals_cons, run_sequence_concat, literal_eq_one, run, Place.skip?]
    cases s.after with
    | nil => rfl
    | cons d after =>
      dsimp only
      rw [holds_single, ih]
      by_cases hcd : d = c
      · simp [hcd]
      · simp [hcd, Ne.symm hcd]

theorem after_skip? (text : List Char) :
    (s.skip? (· == ·) text).map Place.after = Text.afterStart? text s.after := by
  induction text generalizing s with
  | nil => rfl
  | cons c text ih =>
    rw [Place.skip?, Text.afterStart?.eq_def]
    cases s.after with
    | nil => rfl
    | cons d after =>
      simp only [beq_iff_eq]
      split
      · exact ih
      · rfl

-- The induction is on the fuel. Each repetition takes a character, so the last one never stood at
-- the present place, and the fuel lasts as long as there are characters.
theorem after_iterate_one (set : CharSet) {fuel count : Nat} {last : Option Nat}
    (hfuel : s.after.length < fuel) (hlast : last ≠ some s.after.length) :
    (iterate (one set).run 0 none false fuel count last s some).map Place.after =
      some (s.after.dropWhile set.holds) := by
  induction fuel generalizing count last s with
  | zero => exact absurd hfuel (Nat.not_lt_zero _)
  | succ fuel ih =>
    have hmore : (none.all (count < ·) && last != some s.after.length) = true := by
      simpa using hlast
    rw [iterate, if_neg (Nat.not_lt_zero count)]
    simp only [hmore, if_true, Bool.false_eq_true, if_false]
    rw [run.eq_def]
    dsimp only
    cases hafter : s.after with
    | nil => simp [hafter]
    | cons c after =>
      rw [hafter, List.length_cons] at hfuel
      dsimp only
      cases hc : set.holds c with
      | false => simp [hc, hafter]
      | true =>
        have hnext : (iterate (one set).run 0 none false fuel (count + 1)
            (some (after.length + 1)) (s.next c after) some).map Place.after =
              some (after.dropWhile set.holds) :=
          ih (Nat.lt_of_succ_lt_succ hfuel) (by simp [Place.next])
        obtain ⟨t, ht, hbehind⟩ := Option.map_eq_some_iff.1 hnext
        rw [if_pos rfl, List.dropWhile_cons_of_pos hc, List.length_cons, ht]
        exact congrArg some hbehind

/-- A set that is repeated takes all that it accepts. -/
theorem after_run_loop_one (set : CharSet) :
    ((loop 0 none .greedy (one set)).run s some).map Place.after =
      some (s.after.dropWhile set.holds) :=
  after_iterate_one set (by omega) (by simp)

/-- What follows a text, and any number of a character behind it, at the start of another text. -/
theorem afterMatch?_grouped (text : List Char) (c : Char) (path : String) :
    (seq (sequence (literals text)) (.loop 0 none .greedy (literal {} c.toNat))).afterMatch? path =
      (Text.afterStart? text path.toList).map fun behind =>
        String.ofList (behind.dropWhile (· = c)) := by
  have hset : (CharSet.single c).holds = (· = c) := funext (holds_single c)
  have hloop (t : Place) : ((loop 0 none .greedy (one (.single c))).run t some).map
      (fun s => String.ofList s.after) = some (String.ofList (t.after.dropWhile (· = c))) := by
    have hafter := congrArg (Option.map String.ofList) (after_run_loop_one (s := t) (.single c))
    rw [hset, Option.map_map] at hafter
    exact hafter
  rw [afterMatch?, run, run_literals, literal_eq_one, Option.map_bind]
  simp only [Function.comp_def, hloop]
  rw [← after_skip? (s := ⟨[], path.toList, []⟩), Option.map_map]
  exact Option.map_eq_bind.symm

end Running

end FluentGen.Pattern
