import FluentGen.Text.Character

/-!
The tokens of the text format: words, numbers, quoted literals and single symbols. Blanks and
comments separate tokens and are dropped; a literal must end on its line.
-/

namespace FluentGen.TextFormat

/-- A token. A literal is kept as it stands between its quotation marks. -/
inductive Token where
  | word (text : String)
  | number (text : String)
  | literal (inside : List Char)
  | symbol (c : Char)
  deriving DecidableEq, Repr

/-- Where a scan stands: between tokens, in a comment, or in a token, of which the characters read
so far are kept in reverse order. -/
inductive Scan where
  | between
  | comment
  | word (read : List Char)
  | number (read : List Char)
  | literal (quote : Char) (read : List Char)
  | escaped (quote : Char) (read : List Char)
  deriving DecidableEq, Repr

/-- The characters that begin a word. -/
def beginsWord (c : Char) : Bool :=
  c.isAlpha || c = '_'

/-- The characters that continue a word. -/
def continuesWord (c : Char) : Bool :=
  c.isAlphanum || c = '_' || c = '+' || c = '-'

/-- The characters that begin a number. -/
def beginsNumber (c : Char) : Bool :=
  c.isDigit || c = '+' || c = '-'

/-- The characters that continue a number. -/
def continuesNumber (c : Char) : Bool :=
  continuesWord c || c = '.'

/-- What a character between tokens is: the scan goes on, and a symbol is complete at once. -/
def begin (c : Char) : List Token × Scan :=
  if Text.isBlank c then ([], .between)
  else if c = '#' then ([], .comment)
  else if beginsWord c then ([], .word [c])
  else if beginsNumber c then ([], .number [c])
  else if c = '"' ∨ c = '\'' then ([], .literal c [])
  else ([.symbol c], .between)

/-- One character of a scan: the tokens it completes and where the scan stands behind it. There is
no result if a line ends inside a literal. -/
def step : Scan → Char → Option (List Token × Scan)
  | .between, c => some (begin c)
  | .comment, c => some ([], if c = '\n' then .between else .comment)
  | .word read, c =>
    if continuesWord c then some ([], .word (c :: read))
    else
      let (tokens, scan) := begin c
      some (.word (String.ofList read.reverse) :: tokens, scan)
  | .number read, c =>
    if continuesNumber c then some ([], .number (c :: read))
    else
      let (tokens, scan) := begin c
      some (.number (String.ofList read.reverse) :: tokens, scan)
  | .literal quote read, c =>
    if c = '\n' then none
    else if c = quote then some ([.literal read.reverse], .between)
    else if c = '\\' then some ([], .escaped quote (c :: read))
    else some ([], .literal quote (c :: read))
  | .escaped quote read, c =>
    if c = '\n' then none else some ([], .literal quote (c :: read))

/-- The tokens that are still open at the end of the text. -/
def finish : Scan → Option (List Token)
  | .between | .comment => some []
  | .word read => some [.word (String.ofList read.reverse)]
  | .number read => some [.number (String.ofList read.reverse)]
  | .literal .. | .escaped .. => none

/-- The tokens of the rest of a text. -/
def scanFrom : Scan → List Char → Option (List Token)
  | scan, [] => finish scan
  | scan, c :: rest => do
    let (tokens, scan) ← step scan c
    return tokens ++ (← scanFrom scan rest)

/-- The tokens of a text. -/
def tokens? (text : String) : Option (List Token) :=
  scanFrom .between text.toList

end FluentGen.TextFormat
