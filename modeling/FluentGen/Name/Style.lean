import FluentGen.Text.Case

/-!
Spellings of identifiers: camel case for methods, snake case for parameters.
-/

namespace FluentGen.Name

/-- Capitalizes the first character of each word; underscores end a word and are dropped.
`capitalize` says whether the next character begins a word. -/
def camelFrom : (capitalize : Bool) → List Char → List Char
  | _, [] => []
  | capitalize, c :: rest =>
    if c = '_' then camelFrom true rest
    else (if capitalize then Text.upperChars c else [c]) ++ camelFrom false rest

/-- `foo_bar_3` becomes `FooBar3`. -/
def camelCase (name : String) : String :=
  String.ofList (camelFrom true name.toList)

/-- ASCII capitals. -/
def isCapital (c : Char) : Bool :=
  'A' ≤ c && c ≤ 'Z'

/-- ASCII small letters and digits. -/
def isSmallOrDigit (c : Char) : Bool :=
  ('a' ≤ c && c ≤ 'z') || ('0' ≤ c && c ≤ '9')

/-- What has been read of a name on its way to snake case: whether something has been written,
whether the last character counted as an underscore, and whether a capital would begin a new
word. -/
structure SnakeState where
  started : Bool
  afterUnderscore : Bool
  newWord : Bool
  deriving DecidableEq, Repr

/-- One character of a name in snake case. A capital that begins a word gets an underscore in
front; a character that is no ASCII letter or digit separates words, and only the first of several
separators is written. At the very start of a name only an underscore is. -/
def snakeStep (state : SnakeState) (c : Char) : List Char × SnakeState :=
  if isCapital c then
    ((if state.newWord then ['_'] else []) ++ [c.toLower],
      { started := true, afterUnderscore := false, newWord := false })
  else if isSmallOrDigit c then
    ([c], { started := true, afterUnderscore := false, newWord := true })
  else
    let written : Bool :=
      if state.started then !state.afterUnderscore else c == '_'
    (if written then ['_'] else [],
      { started := state.started || written, afterUnderscore := true, newWord := false })

/-- The characters that the rest of a name contributes. -/
def snakeFrom (state : SnakeState) : List Char → List Char
  | [] => []
  | c :: rest =>
    let (written, next) := snakeStep state c
    written ++ snakeFrom next rest

/-- `CamelCase` and scoped names become `snake_case`. -/
def snakeCase (name : String) : String :=
  String.ofList
    (snakeFrom { started := false, afterUnderscore := false, newWord := false } name.toList)

end FluentGen.Name
