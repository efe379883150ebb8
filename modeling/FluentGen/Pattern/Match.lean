import FluentGen.Pattern.Basic

/-!
Matching by backtracking. A pattern is run at a place together with what has to follow it; of all
ways to match, the first in the pattern's order of preference for which the rest succeeds counts.
-/

namespace FluentGen.Pattern

/-- A place in a text: the characters before it, the nearest first, the characters after it, and
what the groups have captured, the latest first. -/
structure Place where
  before : List Char
  after : List Char
  captures : List (Nat × List Char)
  deriving DecidableEq, Repr

namespace Place

/-- The place behind the next character. -/
def next (s : Place) (c : Char) (rest : List Char) : Place :=
  { s with before := c :: s.before, after := rest }

/-- The characters between an earlier place and this one. -/
def since (s start : Place) : List Char :=
  (s.before.take (s.before.length - start.before.length)).reverse

/-- This place with the text since `start` captured by a group. -/
def record (s : Place) (group : Nat) (start : Place) : Place :=
  { s with captures := (group, s.since start) :: s.captures }

/-- The place a number of characters earlier. -/
def back? (s : Place) (n : Nat) : Option Place :=
  if n ≤ s.before.length then
    some { s with
      before := s.before.drop n
      after := (s.before.take n).reverse ++ s.after }
  else none

/-- Whether an anchor holds at this place. -/
def satisfies (s : Place) : Anchor → Bool
  | .start everyLine => s.before.isEmpty || (everyLine && s.before.head? == some '\n')
  | .stop everyLine =>
    s.after.isEmpty || s.after == ['\n'] || (everyLine && s.after.head? == some '\n')
  | .endOfText => s.after.isEmpty
  | .boundary negated asciiOnly =>
    let isWord (c : Option Char) : Bool := c.any fun c => Category.holds asciiOnly c .word
    (isWord s.before.head? != isWord s.after.head?) != negated

/-- The place behind the given text, if the text follows. -/
def skip? (s : Place) (same : Char → Char → Bool) : List Char → Option Place
  | [] => some s
  | c :: text =>
    match s.after with
    | [] => none
    | d :: rest => if same c d then (s.next d rest).skip? same text else none

end Place

/-- What has to follow a match: it fails, or it succeeds with a final place. -/
abbrev Rest := Place → Option Place

/-- Repeats a match. A further repetition beyond `least` is tried only if the last one did not
stand at the same place, so the fuel of one more than `least` and the characters that are left
does not run out. -/
def iterate (body : Place → Rest → Option Place) (least : Nat) (most : Option Nat)
    (lowFirst : Bool) :
    (fuel : Nat) → (count : Nat) → (last : Option Nat) → Place → Rest → Option Place
  | 0, _, _, _, _ => none
  | fuel + 1, count, last, s, rest =>
    let again (last : Option Nat) (_ : Unit) : Option Place :=
      body s fun t => iterate body least most lowFirst fuel (count + 1) last t rest
    if count < least then again last ()
    else if most.all (count < ·) && last != some s.after.length then
      let more := again (some s.after.length)
      if lowFirst then (rest s).orElse more else (more ()).orElse fun _ => rest s
    else rest s

/-- Runs a pattern at a place and then what has to follow. -/
def run : Pattern → Place → Rest → Option Place
  | empty, s, rest => rest s
  | fail, _, _ => none
  | one set, s, rest =>
    match s.after with
    | [] => none
    | c :: after => if set.holds c then rest (s.next c after) else none
  | seq a b, s, rest => a.run s fun t => b.run t rest
  | choice a b, s, rest => (a.run s rest).orElse fun _ => b.run s rest
  | capture group p, s, rest => p.run s fun t => rest (t.record group s)
  | loop least most greed p, s, rest =>
    let fuel := least + s.after.length + 3
    match greed with
    | .greedy => iterate p.run least most false fuel 0 none s rest
    | .lazy => iterate p.run least most true fuel 0 none s rest
    | .possessive =>
      let committed (s : Place) (rest : Rest) : Option Place := (p.run s some).bind rest
      (iterate committed least most false fuel 0 none s some).bind rest
  | anchor condition, s, rest => if s.satisfies condition then rest s else none
  | sameAs group ignoreCase asciiOnly, s, rest =>
    match s.captures.lookup group with
    | none => none
    | some text =>
      let same (a b : Char) : Bool :=
        a == b || (ignoreCase && foldCase asciiOnly a == foldCase asciiOnly b)
      (s.skip? same text).bind rest
  | look behind negated p, s, rest =>
    let found :=
      match behind with
      | none => p.run s some
      | some width => (s.back? width).bind fun earlier => p.run earlier some
    match found with
    | some t => if negated then none else rest { s with captures := t.captures }
    | none => if negated then rest s else none
  | atomic p, s, rest => (p.run s some).bind rest
  | ifCaptured group yes no, s, rest =>
    if (s.captures.lookup group).isSome then yes.run s rest else no.run s rest

/-- What follows a match at the start of the text, for the first match in order of preference. -/
def afterMatch? (p : Pattern) (text : String) : Option String :=
  (p.run ⟨[], text.toList, []⟩ some).map fun s => String.ofList s.after

end FluentGen.Pattern
