import FluentGen.Number.Integer
import FluentGen.Settings.Value
import FluentGen.Text.Basic

/-!
The arguments of the command line. An option has a name of one letter, which may share its dash
with others, or a longer one, which may be cut short as long as it stays unambiguous. An option
takes its value from behind an equals sign or from the next argument. There are no other
arguments, so one that belongs to no option is a mistake.
-/

namespace FluentGen.CommandLine

/-- Options without a value. -/
inductive Switch where
  | help
  | verbose
  | quiet
  | version
  | makeInterface
  | useValidator
  deriving DecidableEq, Repr

/-- Options with a value. -/
inductive Parameter where
  | selection
  | header
  | source
  | interface
  | descriptorSet
  | importPath
  | maxFieldDepth
  | validatorHeader
  | dependencyFile
  | typeMapFile
  | stripPrefixes
  | headerReference
  deriving DecidableEq, Repr

/-- An option. -/
inductive Choice where
  | switch (s : Switch)
  | parameter (p : Parameter)
  deriving DecidableEq, Repr

/-- The options with a name of one letter. -/
def letters : List (Char × Switch) := [('h', .help), ('v', .verbose), ('q', .quiet)]

/-- The options by their long names. -/
def longNames : List (String × Choice) := [
  ("--help", .switch .help),
  ("--verbose", .switch .verbose),
  ("--quiet", .switch .quiet),
  ("--version", .switch .version),
  ("--proto", .parameter .selection),
  ("--header", .parameter .header),
  ("--source", .parameter .source),
  ("--interface", .parameter .interface),
  ("--make_interface", .switch .makeInterface),
  ("--descriptor_set", .parameter .descriptorSet),
  ("--proto_path", .parameter .importPath),
  ("--max_field_depth", .parameter .maxFieldDepth),
  ("--use_validator", .switch .useValidator),
  ("--validator_header", .parameter .validatorHeader),
  ("--conv_deps_file", .parameter .dependencyFile),
  ("--proto_builder_config", .parameter .typeMapFile),
  ("--template_builder_strip_prefix_dir", .parameter .stripPrefixes),
  ("--tpl_value_header", .parameter .headerReference)]

/-- Why the arguments ask for nothing to be generated. -/
inductive Ending where
  | help
  | version
  | mistake
  deriving DecidableEq, Repr

/-- The arguments as they were given. -/
structure Arguments where
  verbose : Bool := false
  quiet : Bool := false
  selection : Option String := none
  header : Option String := none
  source : Option String := none
  interface : String := ""
  makeInterface : Bool := false
  descriptorSet : Option String := none
  importPaths : List String := []
  maxFieldDepth : Int := 0
  useValidator : Bool := false
  validatorHeader : String := ""
  dependencyFile : String := ""
  typeMapFile : String := ""
  stripPrefixes : String := ""
  headerReference : String := ""
  deriving DecidableEq, Repr

/-- What a single argument is taken for. -/
inductive Word where
  /-- A value for the option in front of it. -/
  | value (text : String)
  /-- Two dashes; what follows is not taken for options. -/
  | separator
  /-- A long option, with the value behind its equals sign if it has one. -/
  | option (choice : Choice) (attached : Option String)
  /-- The letters behind a single dash, of which the first is an option. -/
  | letters (cs : List Char)
  | unknown
  deriving DecidableEq, Repr

namespace Word

/-- Whether digits follow, and nothing else. -/
def isDigits (text : List Char) : Bool :=
  !text.isEmpty && text.all fun c => (Text.decimalValue? c).isSome

/-- Whether a text is a dash and a decimal number, which a line feed may follow. -/
def isNegativeNumber (text : String) : Bool :=
  match text.toList with
  | '-' :: rest =>
    let rest := if rest.getLast? = some '\n' then rest.dropLast else rest
    match rest.dropWhile (· ≠ '.') with
    | '.' :: fraction =>
      let whole := rest.takeWhile (· ≠ '.')
      (whole.isEmpty || isDigits whole) && isDigits fraction
    | _ => isDigits rest
  | _ => false

/-- The long option that a name stands for: its own, or the only one that it begins. -/
def longOption (name : String) : Except Ending (Option Choice) :=
  match longNames.lookup name with
  | some choice => .ok (some choice)
  | none =>
    match longNames.filter fun long => Text.startsWith name long.1 with
    | [] => .ok none
    | [(_, choice)] => .ok (some choice)
    | _ => .error .mistake

/-- What an argument that begins with a dash is taken for if no option is found. Numbers below
zero are values, and so is everything with a blank in it. -/
def withoutOption (text : String) : Word :=
  if isNegativeNumber text || text.toList.contains ' ' then .value text else .unknown

/-- What an argument is taken for. -/
def ofText (text : String) : Except Ending Word :=
  match text.toList with
  | ['-', '-'] => .ok .separator
  | '-' :: '-' :: _ => do
    let (name, attached) := Text.cut '=' text
    match ← longOption name with
    | some choice => return .option choice attached
    | none => return withoutOption text
  | '-' :: c :: rest =>
    .ok (if (CommandLine.letters.lookup c).isSome then .letters (c :: rest)
      else withoutOption text)
  | _ => .ok (.value text)

/-- What the arguments are taken for. -/
def ofTexts : List String → Except Ending (List Word)
  | [] => .ok []
  | text :: rest => do
    let word ← ofText text
    if word = .separator then return word :: rest.map .value
    else return word :: (← ofTexts rest)

end Word

namespace Arguments

/-- The arguments with a switch turned on; some switches end everything. -/
def turnOn (a : Arguments) : Switch → Except Ending Arguments
  | .help => .error .help
  | .version => .error .version
  | .verbose => .ok { a with verbose := true }
  | .quiet => .ok { a with quiet := true }
  | .makeInterface => .ok { a with makeInterface := true }
  | .useValidator => .ok { a with useValidator := true }

/-- The arguments with a parameter given; import paths add up, any other value replaces the one
before it. -/
def give (a : Arguments) (p : Parameter) (value : String) : Except Ending Arguments :=
  match p with
  | .selection => .ok { a with selection := some value }
  | .header => .ok { a with header := some value }
  | .source => .ok { a with source := some value }
  | .interface => .ok { a with interface := value }
  | .descriptorSet => .ok { a with descriptorSet := some value }
  | .importPath => .ok { a with importPaths := a.importPaths ++ [value] }
  | .maxFieldDepth =>
    match Number.integer? value with
    | some n => .ok { a with maxFieldDepth := n }
    | none => .error .mistake
  | .validatorHeader => .ok { a with validatorHeader := value }
  | .dependencyFile => .ok { a with dependencyFile := value }
  | .typeMapFile => .ok { a with typeMapFile := value }
  | .stripPrefixes => .ok { a with stripPrefixes := value }
  | .headerReference => .ok { a with headerReference := value }

/-- The switches that letters behind one dash stand for, and whether a letter that stands for none
ends them. A switch takes no value. -/
def switchesOf : List Char → Except Ending (List Switch × Bool)
  | [] => .ok ([], false)
  | c :: rest =>
    match letters.lookup c with
    | none => .ok ([], true)
    | some s =>
      if rest.head? = some '=' || rest.head? = some '-' then .error .mistake
      else do
        let (switches, stray) ← switchesOf rest
        return (s :: switches, stray)

/-- Takes words one after the other, and says whether one of them belonged to no option. -/
def takeWords (a : Arguments) (stray : Bool) : List Word → Except Ending (Arguments × Bool)
  | [] => .ok (a, stray)
  | .value _ :: rest => takeWords a true rest
  | .separator :: rest => takeWords a true rest
  | .unknown :: rest => takeWords a true rest
  | .letters cs :: rest => do
    let (switches, more) ← switchesOf cs
    takeWords (← switches.foldlM turnOn a) (stray || more) rest
  | .option (.switch s) attached :: rest => do
    if attached.isSome then throw .mistake
    takeWords (← a.turnOn s) stray rest
  | .option (.parameter p) (some value) :: rest => do takeWords (← a.give p value) stray rest
  | .option (.parameter p) none :: .value value :: rest => do
    takeWords (← a.give p value) stray rest
  | .option (.parameter _) none :: _ => .error .mistake

/-- Whether the parameters are given that have to be. -/
def isComplete (a : Arguments) : Bool :=
  a.selection.isSome && a.header.isSome && a.source.isSome

/-- Reads the arguments of the command line. -/
def ofTexts (texts : List String) : Except Ending Arguments := do
  let words ← Word.ofTexts texts
  let (a, stray) ← takeWords {} false words
  if stray || !a.isComplete then throw .mistake else return a

open Settings (Value) in
/-- The settings that the arguments give, in the order in which they are checked. -/
def toValue (a : Arguments) : Value :=
  let given (text : Option String) : Value := (text.map Value.text).getD .absent
  .object [
    ("proto", given a.selection),
    ("header", given a.header),
    ("source", given a.source),
    ("interface", .text a.interface),
    ("make_interface", .bool a.makeInterface),
    ("descriptor_set", given a.descriptorSet),
    ("proto_path", .list (a.importPaths.map .text)),
    ("max_field_depth", .int a.maxFieldDepth),
    ("use_validator", .bool a.useValidator),
    ("validator_header", .text a.validatorHeader),
    ("conv_deps_file", .text a.dependencyFile),
    ("proto_builder_config", .text a.typeMapFile),
    ("template_builder_strip_prefix_dir", .text a.stripPrefixes),
    ("tpl_value_header", .text a.headerReference)]

end Arguments

end FluentGen.CommandLine
