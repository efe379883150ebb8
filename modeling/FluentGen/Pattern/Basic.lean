import FluentGen.Text.Character

/-!
Regular expressions: their structure, what a single position of one accepts, and how many
characters one can match.
-/

namespace FluentGen

namespace Pattern

/-- Classes of characters that have an escape of their own. -/
inductive Category where
  | digit
  | blank
  | word
  deriving DecidableEq, Repr

/-- Whether a character belongs to a category, among all scripts or in ASCII only. -/
def Category.holds (asciiOnly : Bool) (c : Char) : Category → Bool
  | .digit => if asciiOnly then c.isDigit else (Text.decimalValue? c).isSome
  | .blank =>
    if asciiOnly then (9 ≤ c.toNat && c.toNat ≤ 13) || c = ' ' else Text.isBlank c
  | .word => if asciiOnly then c.isAlphanum || c = '_' else Text.isWordLike c

/-- A member of a set of characters: a range of code points or a category. -/
inductive SetItem where
  | range (first last : Nat)
  | category (kind : Category) (negated : Bool)
  deriving DecidableEq, Repr

/-- What one position accepts: the characters that are in one of the items, or those in none. -/
structure CharSet where
  negated : Bool := false
  items : List SetItem
  ignoreCase : Bool := false
  asciiOnly : Bool := false
  deriving DecidableEq, Repr

/-- The lower case of a code point, one character for one character. -/
def foldCase (asciiOnly : Bool) (c : Char) : Char :=
  if c.toNat < 128 then c.toLower
  else if asciiOnly then c
  else if c.toNat = 0x130 then 'i'
  else Char.ofNat (Text.mapRuns Text.lowerRuns c.toNat)

/-- The upper case of a code point, one character for one character. -/
def raiseCase (asciiOnly : Bool) (c : Char) : Char :=
  if c.toNat < 128 then c.toUpper
  else if asciiOnly then c
  else Char.ofNat (Text.mapRuns Text.upperRuns c.toNat)

namespace CharSet

/-- Whether one of the items contains the character. -/
def lists (set : CharSet) (c : Char) : Bool :=
  set.items.any fun
    | .range first last => first ≤ c.toNat && c.toNat ≤ last
    | .category kind negated => kind.holds set.asciiOnly c != negated

/-- Whether the set accepts the character; without regard to case, it is enough that one of its
cases is listed. -/
def holds (set : CharSet) (c : Char) : Bool :=
  let listed :=
    if set.ignoreCase then
      set.lists c || set.lists (foldCase set.asciiOnly c) || set.lists (raiseCase set.asciiOnly c)
    else set.lists c
  listed != set.negated

/-- The set of one character. -/
def single (c : Char) : CharSet :=
  { items := [.range c.toNat c.toNat] }

end CharSet

/-- Conditions on a place that consume nothing. -/
inductive Anchor where
  /-- The start of the text; with `everyLine`, of a line. -/
  | start (everyLine : Bool)
  /-- The end of the text or of its last line; with `everyLine`, of a line. -/
  | stop (everyLine : Bool)
  | endOfText
  /-- A word character on exactly one side, or the opposite. -/
  | boundary (negated asciiOnly : Bool)
  deriving DecidableEq, Repr

/-- Which count of repetitions is tried first: the highest, the lowest, or the highest one alone. -/
inductive Greed where
  | greedy
  | lazy
  | possessive
  deriving DecidableEq, Repr

end Pattern

open Pattern in
/-- A regular expression. Groups are numbered from one. -/
inductive Pattern where
  | empty
  | fail
  | one (set : CharSet)
  | seq (first second : Pattern)
  | choice (first second : Pattern)
  | capture (group : Nat) (body : Pattern)
  | loop (least : Nat) (most : Option Nat) (greed : Greed) (body : Pattern)
  | anchor (condition : Anchor)
  | sameAs (group : Nat) (ignoreCase asciiOnly : Bool)
  /-- What follows, or the given number of characters that precede, matches or does not. -/
  | look (behind : Option Nat) (negated : Bool) (body : Pattern)
  | atomic (body : Pattern)
  | ifCaptured (group : Nat) (yes no : Pattern)
  deriving Repr

namespace Pattern

/-- The least and the greatest number of characters of a match; no greatest one if there is no
bound. -/
structure Width where
  least : Nat
  most : Option Nat
  deriving DecidableEq, Repr

namespace Width

/-- The width of a fixed number of characters. -/
def exactly (n : Nat) : Width := ⟨n, some n⟩

/-- The width of one match after another. -/
def append (a b : Width) : Width :=
  ⟨a.least + b.least, do return (← a.most) + (← b.most)⟩

/-- The width of either of two. -/
def either (a b : Width) : Width :=
  ⟨min a.least b.least, do return max (← a.most) (← b.most)⟩

/-- The width of repeated matches. -/
def times (least : Nat) (most : Option Nat) (w : Width) : Width :=
  ⟨least * w.least,
    if most = some 0 || w.most = some 0 then some 0 else do return (← most) * (← w.most)⟩

end Width

/-- The width of a pattern, given the widths of the groups it refers to. -/
def width (groups : Nat → Width) : Pattern → Width
  | empty | fail | anchor _ | look .. => .exactly 0
  | one _ => .exactly 1
  | seq a b => (a.width groups).append (b.width groups)
  | choice a b => (a.width groups).either (b.width groups)
  | capture _ p => p.width groups
  | atomic p => p.width groups
  | loop least most _ p => (p.width groups).times least most
  | sameAs group _ _ => groups group
  | ifCaptured _ yes no => (yes.width groups).either (no.width groups)

end Pattern

end FluentGen
