import FluentGen.Settings.Problem
import FluentGen.Text.Basic

/-!
The settings of a run, and the check that turns given values into them.

Every problem of the single settings is found before the settings are looked at together.
-/

namespace FluentGen

namespace Settings

/-- A limit of the depth of fields. A truth value may stand for the numbers zero and one. -/
inductive Limit where
  | count (n : Nat)
  | truth (b : Bool)
  deriving DecidableEq, Repr

/-- The number of a limit. -/
def Limit.toNat : Limit → Nat
  | count n => n
  | truth b => b.toNat

end Settings

open Settings in
/-- The settings of a run. -/
structure Settings where
  /-- Which messages of which files. -/
  selection : String
  header : String
  source : String
  interface : String := ""
  makeInterface : Bool := false
  descriptorSet : Option String := none
  importPaths : List String := []
  maxFieldDepth : Limit := .count 0
  useValidator : Bool := false
  validatorHeader : String := ""
  dependencyFile : String := ""
  typeMapFile : String := ""
  stripPrefixes : String := ""
  headerReference : String := ""
  deriving DecidableEq, Repr

namespace Settings

/-- A check of one value. -/
abbrev Check (α : Type) := Value → Except Complaint α

/-- The value is a text. -/
def text : Check String
  | .text s => .ok s
  | v => .error (.notText v.kind)

/-- The value is a text and not empty. -/
def nonEmptyText : Check String := fun v => do
  let s ← text v
  if s.isEmpty then throw .emptyText else return s

/-- The value selects messages of files: both are named, with a colon between them. -/
def selectionFlag : Check String := fun v => do
  let s ← nonEmptyText v
  match Text.cut ':' s with
  | (messages, some files) =>
    if messages.isEmpty || files.isEmpty then throw (.badSelection s) else return s
  | (_, none) => throw (.badSelection s)

/-- The value is a list of texts; a text alone is a list of one, and nothing is an empty list. -/
def textList : Check (List String)
  | .absent => .ok []
  | .list items => items.mapM text
  | v => do return [← text v]

/-- The value is a truth value. -/
def truth : Check Bool
  | .bool b => .ok b
  | _ => .error .notBool

/-- The value is a number that is not negative. -/
def limit : Check Limit
  | .bool b => .ok (.truth b)
  | .int n => if n < 0 then .error .belowZero else .ok (.count n.toNat)
  | _ => .error .notInt

/-- The value is absent, or a text that is not empty. -/
def optionalText : Check (Option String)
  | .absent => .ok none
  | v =>
    match nonEmptyText v with
    | .ok s => .ok (some s)
    | .error _ => .error .notAllowed

/-- The settings that must be given. -/
def requiredKeys : List String := ["proto", "header", "source"]

/-- Sets one setting. -/
def assign (s : Settings) (key : String) (value : Value) : Except Problem Settings :=
  let given {α : Type} (check : Check α) (use : α → Settings) : Except Problem Settings :=
    match check value with
    | .ok a => .ok (use a)
    | .error complaint => .error (.invalid key complaint)
  match key with
  | "proto" => given selectionFlag fun v => { s with selection := v }
  | "header" => given nonEmptyText fun v => { s with header := v }
  | "source" => given nonEmptyText fun v => { s with source := v }
  | "interface" => given text fun v => { s with interface := v }
  | "make_interface" => given truth fun v => { s with makeInterface := v }
  | "descriptor_set" => given optionalText fun v => { s with descriptorSet := v }
  | "proto_path" => given textList fun v => { s with importPaths := v }
  | "max_field_depth" => given limit fun v => { s with maxFieldDepth := v }
  | "use_validator" => given truth fun v => { s with useValidator := v }
  | "validator_header" => given text fun v => { s with validatorHeader := v }
  | "conv_deps_file" => given text fun v => { s with dependencyFile := v }
  | "proto_builder_config" => given text fun v => { s with typeMapFile := v }
  | "template_builder_strip_prefix_dir" => given text fun v => { s with stripPrefixes := v }
  | "tpl_value_header" => given text fun v => { s with headerReference := v }
  | _ => .error (.unknown key)

/-- The settings before any is given. -/
def initial : Settings := { selection := "", header := "", source := "" }

/-- Sets the given settings one after the other and gathers the problems in their order. -/
def assignAll : Settings → List (String × Value) → Settings × List Problem
  | s, [] => (s, [])
  | s, (key, value) :: rest =>
    match s.assign key value with
    | .ok s => assignAll s rest
    | .error problem =>
      let (s, problems) := assignAll s rest
      (s, problem :: problems)

/-- The rules between settings: an interface needs a file, and a validator header asks for the
validator. -/
def complete (s : Settings) : Except (List Problem) Settings :=
  if s.makeInterface && s.interface.isEmpty then .error [.interfaceMissing]
  else .ok { s with useValidator := s.useValidator || !s.validatorHeader.isEmpty }

/-- The settings that a value describes, or all that is wrong with it. -/
def ofValue : Value → Except (List Problem) Settings
  | .object entries =>
    let (s, problems) := assignAll initial entries
    let absent := requiredKeys.filter fun key => !entries.any (·.1 == key)
    match problems ++ absent.map Problem.missing with
    | [] => s.complete
    | problems => .error problems
  | _ => .error [.notAnObject]

/-- The value of a limit. -/
def Limit.toValue : Limit → Value
  | count n => .int n
  | truth b => .bool b

/-- The value that describes settings in full. -/
def toValue (s : Settings) : Value :=
  .object [
    ("proto", .text s.selection),
    ("header", .text s.header),
    ("source", .text s.source),
    ("interface", .text s.interface),
    ("make_interface", .bool s.makeInterface),
    ("descriptor_set", (s.descriptorSet.map Value.text).getD .absent),
    ("proto_path", .list (s.importPaths.map .text)),
    ("max_field_depth", s.maxFieldDepth.toValue),
    ("use_validator", .bool s.useValidator),
    ("validator_header", .text s.validatorHeader),
    ("conv_deps_file", .text s.dependencyFile),
    ("proto_builder_config", .text s.typeMapFile),
    ("template_builder_strip_prefix_dir", .text s.stripPrefixes),
    ("tpl_value_header", .text s.headerReference)]

end Settings

end FluentGen
