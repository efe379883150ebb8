import FluentGen.Pattern.Basic
import FluentGen.Text.Basic

/-!
Reading a regular expression. Reading fails on everything that has no meaning: open groups and
sets, repetitions of nothing, unknown escapes, references to groups that do not exist or are still
open, and conditions on the preceding text that have no fixed width.
-/

namespace FluentGen.Pattern

/-- How the characters of a part of the expression are understood. -/
structure Mode where
  ignoreCase : Bool := false
  everyLine : Bool := false
  dotAll : Bool := false
  spaced : Bool := false
  asciiOnly : Bool := false
  deriving DecidableEq, Repr

/-- How far an expression has been read: what is left, the number of groups that have been opened,
those still open, the widths of those closed, the named ones, the number of groups when the
outermost condition on preceding text began, and the groups that conditions refer to. -/
structure ReadState where
  rest : List Char
  opened : Nat := 0
  stillOpen : List Nat := []
  widths : List (Nat × Width) := []
  names : List (String × Nat) := []
  lookingBehindFrom : Option Nat := none
  tested : List Nat := []

/-- A step of reading; it has no result if the expression has no meaning. -/
abbrev Read := StateT ReadState Option

namespace Read

/-- The expression has no meaning. -/
def fail {α : Type} : Read α := fun _ => none

/-- The next character, which stays. -/
def peek? : Read (Option Char) := do return (← get).rest.head?

/-- Takes the next character. -/
def take : Read Char := do
  match (← get).rest with
  | [] => fail
  | c :: rest => modify ({ · with rest }); return c

/-- Takes the next character if it is the given one. -/
def accept (c : Char) : Read Bool := do
  match (← get).rest with
  | [] => return false
  | d :: rest =>
    if c = d then modify ({ · with rest }); return true
    else return false

/-- Takes the given character. -/
def expect (c : Char) : Read Unit := do
  unless ← accept c do fail

/-- Takes the characters that satisfy a test, at most `limit` of them. -/
def takeWhile (limit : Nat) (test : Char → Bool) : Read (List Char) := do
  let rest := (← get).rest
  let taken := (rest.take limit).takeWhile test
  modify ({ · with rest := rest.drop taken.length })
  return taken

/-- Takes the digits that follow. -/
def digits : Read (List Char) := do
  let rest := (← get).rest
  takeWhile rest.length Char.isDigit

/-- Takes a name up to the given character, and that character; the name is not empty. -/
def nameUpTo (stop : Char) : Read (List Char) := do
  let rest := (← get).rest
  match Text.cutChars stop rest with
  | (_, none) => fail
  | ([], some _) => fail
  | (name, some after) => modify ({ · with rest := after }); return name

/-- The character of a hexadecimal escape of exactly `count` digits. -/
def hexEscape (count : Nat) : Read Nat := do
  let text ← takeWhile count fun c => (Text.hexValue? c).isSome
  if text.length = count then
    match Text.hexNumber? text with
    | some n => if n < 0x110000 then return n else fail
    | none => fail
  else fail

end Read

/-- Octal digits. -/
def isOctal (c : Char) : Bool := '0' ≤ c && c ≤ '7'

/-- The number that octal digits denote. -/
def ofOctal (digits : List Char) : Nat :=
  digits.foldl (fun acc c => 8 * acc + (c.toNat - 48)) 0

/-- The number that decimal digits denote. -/
def ofDecimal (digits : List Char) : Nat :=
  digits.foldl (fun acc c => 10 * acc + (c.toNat - 48)) 0

/-- A repetition count must be below this bound. -/
def countBound : Nat := 4294967295

/-- The category that an escape letter names, and whether it is negated. -/
def category? : Char → Option (Category × Bool)
  | 'd' => some (.digit, false)
  | 'D' => some (.digit, true)
  | 's' => some (.blank, false)
  | 'S' => some (.blank, true)
  | 'w' => some (.word, false)
  | 'W' => some (.word, true)
  | _ => none

/-- The control character that an escape letter names. -/
def control? : Char → Option Nat
  | 'a' => some 7
  | 'b' => some 8
  | 'f' => some 12
  | 'n' => some 10
  | 'r' => some 13
  | 't' => some 9
  | 'v' => some 11
  | _ => none

/-- The code point of an escape that means the same inside and outside of sets. -/
def codeEscape (c : Char) : Read Nat := do
  if c = 'x' then Read.hexEscape 2
  else if c = 'u' then Read.hexEscape 4
  else if c = 'U' then Read.hexEscape 8
  else if c.isAlphanum then Read.fail
  else return c.toNat

/-- The escape behind a backslash inside a set. -/
def setEscape : Read SetItem := do
  let c ← Read.take
  match control? c, category? c with
  | some n, _ => return .range n n
  | none, some (kind, negated) => return .category kind negated
  | none, none =>
    if isOctal c then
      let n := ofOctal (c :: (← Read.takeWhile 2 isOctal))
      if 0o377 < n then Read.fail else return .range n n
    else
      let n ← codeEscape c
      return .range n n

/-- One end of a range or a member of a set, of which the first character has been taken. -/
def setMember (c : Char) : Read SetItem := do
  if c = '\\' then setEscape else return .range c.toNat c.toNat

/-- The members of a set up to its closing bracket, which does not close an empty set. The fuel of
one for each character that is left does not run out. -/
def setMembers : (fuel : Nat) → List SetItem → Read (List SetItem)
  | 0, _ => Read.fail
  | fuel + 1, items => do
    let c ← Read.take
    if c = ']' && !items.isEmpty then return items
    let item ← setMember c
    if ← Read.accept '-' then
      let d ← Read.take
      if d = ']' then return items ++ [item, .range 45 45]
      match item, ← setMember d with
      | .range first _, .range last _ =>
        if last < first then Read.fail
        else setMembers fuel (items ++ [.range first last])
      | _, _ => Read.fail
    else setMembers fuel (items ++ [item])

/-- A set, of which the opening bracket has been taken. -/
def charSet (mode : Mode) : Read CharSet := do
  let negated ← Read.accept '^'
  let items ← setMembers ((← get).rest.length + 1) []
  return { negated, items, ignoreCase := mode.ignoreCase, asciiOnly := mode.asciiOnly }

/-- The pattern of one literal character. -/
def literal (mode : Mode) (n : Nat) : Pattern :=
  .one
    { items := [.range n n], ignoreCase := mode.ignoreCase, asciiOnly := mode.asciiOnly }

/-- A reference to a group, which must be closed and not part of a condition on preceding text
that is still being read. -/
def reference (mode : Mode) (group : Nat) : Read Pattern := do
  let state ← get
  if group = 0 || state.opened < group || state.stillOpen.contains group then Read.fail
  if state.lookingBehindFrom.any (· < group) then Read.fail
  return .sameAs group mode.ignoreCase mode.asciiOnly

/-- The escape behind a backslash outside of sets. -/
def escape (mode : Mode) : Read Pattern := do
  let c ← Read.take
  let categories : Option Pattern := (category? c).map fun (kind, negated) =>
    .one { items := [.category kind negated], asciiOnly := mode.asciiOnly }
  match categories with
  | some p => return p
  | none =>
    if c = 'A' then return .anchor (.start false)
    else if c = 'Z' then return .anchor .endOfText
    else if c = 'b' then return .anchor (.boundary false mode.asciiOnly)
    else if c = 'B' then return .anchor (.boundary true mode.asciiOnly)
    else
      match control? c with
      | some n => return literal mode n
      | none =>
        if c = '0' then
          return literal mode (ofOctal (← Read.takeWhile 2 isOctal))
        else if c.isDigit then
          let second ← Read.takeWhile 1 Char.isDigit
          let third ←
            if isOctal c && !second.isEmpty && second.all isOctal then
              Read.takeWhile 1 isOctal
            else pure []
          if third.isEmpty then reference mode (ofDecimal (c :: second))
          else
            let n := ofOctal (c :: (second ++ third))
            if 0o377 < n then Read.fail else return literal mode n
        else
          let n ← codeEscape c
          return literal mode n

/-- The bounds in braces behind an opening brace, if what follows are bounds; otherwise nothing is
taken. -/
def bounds? : Read (Option (Nat × Option Nat)) := do
  let start ← get
  if (← Read.peek?) = some '}' then return none
  let low ← Read.digits
  let comma ← Read.accept ','
  let high ← if comma then Read.digits else pure low
  if ← Read.accept '}' then
    let least := ofDecimal low
    let most := if high.isEmpty then none else some (ofDecimal high)
    if countBound ≤ least || most.any (countBound ≤ ·) || most.any (· < least) then Read.fail
    return some (least, most)
  else
    set start
    return none

/-- How an item of a sequence may be repeated: not at all because it is a place, not again, or
freely. -/
inductive Repeatable where
  | place
  | repeated
  | item
  deriving DecidableEq, Repr

/-- A sequence while it is read, the last item first. -/
abbrev Items := List (Repeatable × Pattern)

/-- The items as one pattern. -/
def sequence (items : Items) : Pattern :=
  items.foldl (fun later item =>
    match later with
    | .empty => item.2
    | _ => .seq item.2 later) .empty

/-- The sign behind a repetition that says which count is tried first. -/
def greed : Read Greed := do
  if ← Read.accept '?' then return .lazy
  if ← Read.accept '+' then return .possessive
  return .greedy

/-- The last item, repeated. -/
def repeatLast (least : Nat) (most : Option Nat) (items : Items) : Read Items := do
  match items with
  | [] => Read.fail
  | (kind, p) :: earlier =>
    if kind != .item then Read.fail
    return (.repeated, .loop least most (← greed) p) :: earlier

/-- Opens a group and gives its number. -/
def openGroup (name : Option String) : Read Nat := do
  let state ← get
  let group := state.opened + 1
  let names ←
    match name with
    | none => pure state.names
    | some name =>
      if (state.names.lookup name).isSome then Read.fail else pure ((name, group) :: state.names)
  set { state with opened := group, stillOpen := group :: state.stillOpen, names }
  return group

/-- The width of a group that has been closed. -/
def groupWidth (state : ReadState) (group : Nat) : Width :=
  (state.widths.lookup group).getD (.exactly 0)

/-- Closes a group. -/
def closeGroup (group : Nat) (body : Pattern) : Read Unit :=
  modify fun state => { state with
    stillOpen := state.stillOpen.erase group
    widths := (group, body.width (groupWidth state)) :: state.widths }

/-- Whether a text is an identifier. -/
def isIdentifier (name : List Char) : Bool :=
  match name with
  | [] => false
  | c :: rest =>
    Text.isWordLike c && (Text.decimalValue? c).isNone && rest.all Text.isWordLike

/-- Takes a group's name up to the given character. -/
def groupName (stop : Char) : Read String := do
  let name ← Read.nameUpTo stop
  if isIdentifier name then return String.ofList name else Read.fail

/-- The mode in which a flag is switched on or off. -/
def Mode.switch (mode : Mode) (on : Bool) : Char → Option Mode
  | 'i' => some { mode with ignoreCase := on }
  | 'm' => some { mode with everyLine := on }
  | 's' => some { mode with dotAll := on }
  | 'x' => some { mode with spaced := on }
  | 'a' => if on then some { mode with asciiOnly := true } else none
  | 'u' => if on then some { mode with asciiOnly := false } else none
  | _ => none

/-- The mode of a group with flags. Those before the minus are switched on and those behind it
off; no flag may be on both sides, and there is one at least on each side that is written. -/
def flags (mode : Mode) (first : Char) : Read Mode := do
  let (text, after) := Text.cutChars ':' (← get).rest
  match after with
  | some rest => modify fun state => { state with rest }
  | none => Read.fail
  let (on, off) := Text.cutChars '-' (first :: text)
  let off := off.getD ['-']
  if off.isEmpty || (on.isEmpty && off == ['-']) then Read.fail
  if on.any off.contains || (on.contains 'a' && on.contains 'u') then Read.fail
  let mode ←
    match on.foldlM (fun mode c => mode.switch true c) mode with
    | some mode => pure mode
    | none => Read.fail
  match (off.filter (· ≠ '-')).foldlM (fun mode c => mode.switch false c) mode with
  | some mode => return mode
  | none => Read.fail

/-- The group that a condition tests, by name or by number. -/
def testedGroup : Read Nat := do
  let name ← Read.nameUpTo ')'
  let state ← get
  let group ←
    if isIdentifier name then
      match state.names.lookup (String.ofList name) with
      | some group => pure group
      | none => Read.fail
    else if name.all Char.isDigit && ofDecimal name ≠ 0 then pure (ofDecimal name)
    else Read.fail
  if state.lookingBehindFrom.any (· < group) then Read.fail
  modify fun state => { state with tested := group :: state.tested }
  return group

/-- Takes what is left of a line. -/
def skipLine : Read Unit :=
  modify fun state => { state with rest := (state.rest.dropWhile (· ≠ '\n')).drop 1 }

/-- The blanks that are passed over in a spaced expression. -/
def isSpacing (c : Char) : Bool :=
  (9 ≤ c.toNat && c.toNat ≤ 13) || c = ' '

mutual

/-- Alternatives up to the end of the expression or a closing parenthesis. Each of the four
readers takes one of the fuel, and of any three that follow each other one takes a character. -/
def alternatives : (fuel : Nat) → Mode → Read Pattern
  | 0, _ => Read.fail
  | fuel + 1, mode => do
    let first ← items fuel mode []
    if ← Read.accept '|' then
      return .choice first (← alternatives fuel mode)
    else return first

/-- A sequence up to a bar, a closing parenthesis or the end. -/
def items : (fuel : Nat) → Mode → Items → Read Pattern
  | 0, _, _ => Read.fail
  | fuel + 1, mode, done => do
    match ← Read.peek? with
    | none => return sequence done
    | some c =>
      if c = '|' || c = ')' then return sequence done
      let c ← Read.take
      if mode.spaced && isSpacing c then items fuel mode done
      else if mode.spaced && c = '#' then
        skipLine
        items fuel mode done
      else if c = '\\' then
        let p ← escape mode
        let kind := match p with
          | .anchor _ => Repeatable.place
          | _ => .item
        items fuel mode ((kind, p) :: done)
      else if c = '[' then
        let set ← charSet mode
        items fuel mode ((.item, .one set) :: done)
      else if c = '.' then
        let set : CharSet :=
          { negated := true, items := if mode.dotAll then [] else [.range 10 10] }
        items fuel mode ((.item, .one set) :: done)
      else if c = '^' then
        items fuel mode ((.place, .anchor (.start mode.everyLine)) :: done)
      else if c = '$' then
        items fuel mode ((.place, .anchor (.stop mode.everyLine)) :: done)
      else if c = '*' then
        items fuel mode (← repeatLast 0 none done)
      else if c = '+' then
        items fuel mode (← repeatLast 1 none done)
      else if c = '?' then
        items fuel mode (← repeatLast 0 (some 1) done)
      else if c = '{' then
        match ← bounds? with
        | some (least, most) => items fuel mode (← repeatLast least most done)
        | none => items fuel mode ((.item, literal mode c.toNat) :: done)
      else if c = '(' then
        match ← group fuel mode with
        | some p => items fuel mode ((.item, p) :: done)
        | none => items fuel mode done
      else items fuel mode ((.item, literal mode c.toNat) :: done)

/-- A group, of which the opening parenthesis has been taken; a comment gives no pattern. -/
def group : (fuel : Nat) → Mode → Read (Option Pattern)
  | 0, _ => Read.fail
  | fuel + 1, mode => do
    if ← Read.accept '?' then
      let c ← Read.take
      if c = 'P' then
        if ← Read.accept '<' then
          some <$> captured fuel mode (some (← groupName '>'))
        else if ← Read.accept '=' then
          let name ← groupName ')'
          match (← get).names.lookup name with
          | some group => some <$> reference mode group
          | none => Read.fail
        else Read.fail
      else if c = ':' then
        let p ← alternatives fuel mode
        Read.expect ')'
        return some p
      else if c = '#' then
        let (_, after) := Text.cutChars ')' (← get).rest
        match after with
        | some rest => modify ({ · with rest }); return none
        | none => Read.fail
      else if c = '=' || c = '!' then
        let p ← alternatives fuel mode
        Read.expect ')'
        return some (.look none (c = '!') p)
      else if c = '<' then
        let c ← Read.take
        if c ≠ '=' && c ≠ '!' then Read.fail
        let outer := (← get).lookingBehindFrom
        modify fun state =>
          { state with lookingBehindFrom := some (outer.getD state.opened) }
        let p ← alternatives fuel mode
        modify fun state => { state with lookingBehindFrom := outer }
        Read.expect ')'
        let w := p.width (groupWidth (← get))
        if w.most = some w.least then return some (.look (some w.least) (c = '!') p)
        else Read.fail
      else if c = '(' then
        let group ← testedGroup
        let yes ← items fuel mode []
        let no ← if ← Read.accept '|' then items fuel mode [] else pure .empty
        Read.expect ')'
        return some (.ifCaptured group yes no)
      else if c = '>' then
        let p ← alternatives fuel mode
        Read.expect ')'
        return some (.atomic p)
      else
        let mode ← flags mode c
        let p ← alternatives fuel mode
        Read.expect ')'
        return some p
    else some <$> captured fuel mode none

/-- A capturing group, of which the opening parenthesis and the name have been taken. -/
def captured : (fuel : Nat) → Mode → Option String → Read Pattern
  | 0, _, _ => Read.fail
  | fuel + 1, mode, name => do
    let group ← openGroup name
    let p ← alternatives fuel mode
    Read.expect ')'
    closeGroup group p
    return .capture group p

end

/-- Reads a regular expression. -/
def read? (text : String) : Option Pattern := do
  let chars := text.toList
  let (p, state) ← (alternatives (4 * chars.length + 8) {}).run { rest := chars }
  if state.rest.isEmpty && state.tested.all (· ≤ state.opened) then some p else none

end FluentGen.Pattern
