import FluentGen.TextFormat.Token
import FluentGen.Text.Escape
import FluentGen.Number.Integer

/-!
The structure of the text format. A message is a sequence of named values; a value is an atom, a
text, a nested message or a list of these. Which values a name may have is decided by whoever
reads the tree.
-/

namespace FluentGen.TextFormat

mutual

/-- A value: a word, number or symbol as it is spelled, a text, a message or a list. -/
inductive Value where
  | atom (spelling : String)
  | text (content : String)
  | message (fields : List Field)
  | list (items : List Value)

/-- A named value; `colon` says whether a colon stands between the two. -/
inductive Field where
  | mk (name : String) (colon : Bool) (value : Value)

end

instance : Inhabited Value := ⟨.message []⟩

/-- Whether a colon is written in front of a value. -/
def Value.takesColon : Value → Bool
  | .message _ => false
  | _ => true

namespace Field

/-- A field as it is written: a colon stands behind its name unless the value is a message. -/
def of (name : String) (value : Value) : Field :=
  mk name value.takesColon value

/-- The name in front of the value. -/
def name : Field → String
  | mk name _ _ => name

/-- Whether a colon stands behind the name. -/
def colon : Field → Bool
  | mk _ colon _ => colon

/-- The value behind the name. -/
def value : Field → Value
  | mk _ _ value => value

end Field

/-- Adjacent literals are one text. -/
def leadingLiterals : List Token → List (List Char) × List Token
  | .literal inside :: rest =>
    let (more, rest) := leadingLiterals rest
    (inside :: more, rest)
  | rest => ([], rest)

/-- The text of adjacent literals. Their bytes are put together before they are read as
characters. -/
def textOfLiterals? (literals : List (List Char)) : Option String := do
  let bytes ← literals.mapM fun inside => (Text.unescapeChars inside).toOption
  Text.ofUtf8? bytes.flatten

/-- A colon may stand behind the name of a field. -/
def leadingColon : List Token → Bool × List Token
  | .symbol ':' :: rest => (true, rest)
  | rest => (false, rest)

/-- A separator may stand behind a field. -/
def skipSeparator : List Token → List Token
  | .symbol ',' :: rest => rest
  | .symbol ';' :: rest => rest
  | rest => rest

/-- The bracket that closes a message. -/
def closing? : Char → Option Char
  | '{' => some '}'
  | '<' => some '>'
  | _ => none

mutual

/-- Reads fields up to the given closing bracket, or to the end without one. Each reader takes one
of the fuel, and of any two that follow each other one takes a token. -/
def readFields : (fuel : Nat) → (close : Option Char) → List Token →
    Option (List Field × List Token)
  | 0, _, _ => none
  | _ + 1, close, [] => if close.isNone then some ([], []) else none
  | _ + 1, close, .symbol c :: rest =>
    if close = some c then some ([], rest) else none
  | fuel + 1, close, .word name :: rest => do
    let (colon, rest) := leadingColon rest
    let (value, rest) ← readValue fuel rest
    let (fields, rest) ← readFields fuel close (skipSeparator rest)
    return (.mk name colon value :: fields, rest)
  | _ + 1, _, _ => none

/-- Reads one value. -/
def readValue : (fuel : Nat) → List Token → Option (Value × List Token)
  | 0, _ => none
  | fuel + 1, .symbol c :: rest =>
    if c = '[' then
      match rest with
      | .symbol ']' :: rest => some (.list [], rest)
      | rest => do
        let (items, rest) ← readItems fuel rest
        return (.list items, rest)
    else
      match closing? c with
      | some close => do
        let (fields, rest) ← readFields fuel (some close) rest
        return (.message fields, rest)
      | none => some (.atom (String.singleton c), rest)
  | _ + 1, .literal inside :: rest => do
    let (more, rest) := leadingLiterals rest
    let content ← textOfLiterals? (inside :: more)
    return (.text content, rest)
  | _ + 1, .word text :: rest => some (.atom text, rest)
  | _ + 1, .number text :: rest => some (.atom text, rest)
  | _ + 1, [] => none

/-- Reads the items of a list up to its closing bracket. -/
def readItems : (fuel : Nat) → List Token → Option (List Value × List Token)
  | 0, _ => none
  | fuel + 1, tokens => do
    let (value, rest) ← readValue fuel tokens
    match rest with
    | .symbol ']' :: rest => return ([value], rest)
    | .symbol ',' :: rest => do
      let (items, rest) ← readItems fuel rest
      return (value :: items, rest)
    | _ => none

end

/-- The fields of a text. -/
def read? (text : String) : Option (List Field) := do
  let tokens ← tokens? text
  let (fields, _) ← readFields (2 * tokens.length + 2) none tokens
  return fields

mutual

/-- The spelling of a value: a message stands in braces, a text in quotes, a list in brackets. -/
def Value.render : Value → String
  | .atom spelling => spelling
  | .text content => "\"" ++ Text.escapeKeepingUnicode content ++ "\""
  | .message fields => "\x7b " ++ renderEach fields ++ "\x7d"
  | .list items => "[" ++ ", ".intercalate (renderItems items) ++ "]"

/-- The spelling of a field. -/
def Field.render : Field → String
  | .mk name colon value => name ++ (if colon then ": " else " ") ++ value.render

/-- The spelling of fields, with a blank behind each. -/
def renderEach : List Field → String
  | [] => ""
  | f :: rest => f.render ++ " " ++ renderEach rest

/-- The spellings of the items of a list. -/
def renderItems : List Value → List String
  | [] => []
  | v :: rest => v.render :: renderItems rest

end

/-- A message on one line, its fields separated by one blank. -/
def render (fields : List Field) : String :=
  " ".intercalate (fields.map Field.render)

namespace Value

/-- Adds digits to a number; no underscore may come next if the last character was one. -/
def addDigits (base : Nat) (noUnderscore : Bool) (n : Nat) : List Char → Option Nat
  | [] => some n
  | c :: rest =>
    if c = '_' then
      if noUnderscore then none else addDigits base true n rest
    else
      match Text.hexValue? c with
      | some d => if d < base then addDigits base false (base * n + d) rest else none
      | none => none

/-- Digits of a base, with single underscores between them and, behind a mark, in front. -/
def based? (base : Nat) (chars : List Char) : Option Nat :=
  let digits := if base ≠ 10 && chars.head? = some '_' then chars.drop 1 else chars
  if digits.isEmpty || digits.getLast? = some '_' then none else addDigits base true 0 digits

/-- The number without its sign: decimal without leading zeros, or hexadecimal, octal or binary
behind its mark. -/
def magnitude? : List Char → Option Nat
  | '0' :: mark :: rest =>
    if mark = 'x' ∨ mark = 'X' then based? 16 rest
    else if mark = 'o' ∨ mark = 'O' then based? 8 rest
    else if mark = 'b' ∨ mark = 'B' then based? 2 rest
    else if (mark :: rest).all fun c => c = '0' || c = '_' then based? 10 ('0' :: mark :: rest)
    else none
  | chars => based? 10 chars

/-- The number of an integer literal. A sign may precede it and single underscores may stand
between digits. -/
def integer? (spelling : String) : Option Int :=
  let (negative, chars) := Number.splitSign (Number.plainDigits spelling.toList)
  (magnitude? chars).map fun n => if negative then -Int.ofNat n else Int.ofNat n

/-- The truth value that an atom spells. -/
def truth? (spelling : String) : Option Bool :=
  if ["true", "t", "1", "True"].contains spelling then some true
  else if ["false", "f", "0", "False"].contains spelling then some false
  else none

end Value

end FluentGen.TextFormat
