import FluentGen.Text.Basic

/-!
Replacing tokens in a single pass. The text is first cut into segments, which depends on the
tokens alone; values are put in afterwards, so an inserted value is never searched again.
-/

namespace FluentGen.Text

/-- A piece of a text: a character that stays, or an occurrence of a token. -/
inductive Segment where
  | literal (c : Char)
  | token (t : List Char)
  deriving DecidableEq, Repr

namespace Segment

/-- The text that a segment was cut from. -/
def source : Segment → List Char
  | literal c => [c]
  | token t => t

/-- The text that takes the place of a segment: a token becomes the value of the first pair that
names it. -/
def render (pairs : List (List Char × List Char)) : Segment → List Char
  | literal c => [c]
  | token t => (pairs.lookup t).getD t

end Segment

/-- The first non-empty token of the list that begins the text. -/
def leadingToken? (tokens : List (List Char)) (text : List Char) : Option (List Char) :=
  tokens.find? fun t => !t.isEmpty && t.isPrefixOf text

/-- Cuts a text at its tokens from left to right; `skip` characters still belong to the token that
was cut off last. -/
def segmentsFrom (tokens : List (List Char)) : (skip : Nat) → List Char → List Segment
  | _, [] => []
  | skip + 1, _ :: rest => segmentsFrom tokens skip rest
  | 0, c :: rest =>
    match leadingToken? tokens (c :: rest) with
    | some t => .token t :: segmentsFrom tokens (t.length - 1) rest
    | none => .literal c :: segmentsFrom tokens 0 rest

/-- The cut of a text at the occurrences of the tokens: the leftmost occurrence first, and of two
tokens that begin at the same place the one listed first. -/
def segments (tokens : List (List Char)) (text : List Char) : List Segment :=
  segmentsFrom tokens 0 text

/-- The text with each token replaced by its value. -/
def substituteChars (pairs : List (List Char × List Char)) (text : List Char) : List Char :=
  (segments (pairs.map Prod.fst) text).flatMap (Segment.render pairs)

/-- The text with each token replaced by its value; empty tokens are ignored. -/
def substitute (pairs : List (String × String)) (text : String) : String :=
  String.ofList
    (substituteChars (pairs.map fun p => (p.1.toList, p.2.toList)) text.toList)

/-- The text with every occurrence of one token replaced. -/
def replace (token value text : String) : String :=
  substitute [(token, value)] text

end FluentGen.Text
