import FluentGen.Failure
import FluentGen.Name.TypeName
import FluentGen.Text.Substitution

/-!
The rules for the entries of a type map. They are tried in a fixed order, so an entry that breaks
several is rejected for the first one; the rule against an empty key comes last.
-/

namespace FluentGen.TypeMap

/-- The sigils that begin the keys of built-in types, of types that the generated code itself
uses, of custom keys and of automatic types. -/
def builtinSigil : Char := '@'

@[inherit_doc builtinSigil] def specialSigil : Char := '%'

@[inherit_doc builtinSigil] def customSigil : Char := '$'

@[inherit_doc builtinSigil] def automaticSigil : Char := '='

/-- The token that stands for the type of the field. -/
def typeToken : String := "@type@"

/-- The token that stands for the value that is stored. -/
def valueToken : String := "@value@"

/-- The keys that may begin with a reserved sigil, and the built-in ones without. -/
def builtinKeys : List String := [
  "string", "bytes", "@absl::string_view", "@Map:absl::string_view", "@TextProto",
  "@TextProto:absl::string_view", "@TextProto:Map:Value:absl::string_view", "@ToInt64Seconds",
  "@ToInt64Milliseconds", "@ToDoubleSeconds", "@ToDoubleMilliseconds", "@ToProtoDuration",
  "@ToProtoTimestamp", "%SourceLocation", "%Status", "%StatusOr", "%Validate",
  "%LogSourceLocation"]

/-- Whether a key begins with a sigil. -/
def hasSigil (sigil : Char) (key : String) : Bool :=
  key.toList.head? == some sigil

/-- Whether a key is the custom sigil, an ASCII letter, and any letters, digits and
underscores. -/
def isCustomKey (key : String) : Bool :=
  match key.toList with
  | s :: c :: rest => s == customSigil && c.isAlpha && rest.all Text.isWordChar
  | _ => false

/-- Whether a key begins with a reserved sigil. -/
def isReservedKey (key : String) : Bool :=
  hasSigil builtinSigil key || hasSigil specialSigil key

/-- The rules, each with whether the entry keeps it. -/
def checks (key : String) (o : FieldOptions) : List (EntryRule × Bool) := [
  (.sigilInType, !(Text.replace typeToken "Type" (textOf o.type)).toList.contains builtinSigil),
  (.nameSet, o.name.isNone),
  (.decoratedTypeAlone, !(textOf o.type).isEmpty || (textOf o.decoratedType).isEmpty),
  (.typeTokenInValue, !Text.contains typeToken (textOf o.value)),
  (.valueTokenInValue, !Text.contains valueToken (textOf o.value)),
  (.emptyInclude, o.includes.all fun i => !i.isEmpty),
  (.lineBreakInInclude, o.includes.all fun i => !i.toList.contains '\n'),
  (.automaticKey, !o.automatic.getD false || hasSigil automaticSigil key),
  (.reservedKey, !isReservedKey key || builtinKeys.contains key),
  (.customKey, !hasSigil customSigil key || isCustomKey key),
  (.macroSet, o.macroKey.isNone),
  (.emptyKey, !key.isEmpty)]

/-- The first rule that an entry breaks. -/
def brokenRule? (key : String) (o : FieldOptions) : Option EntryRule :=
  ((checks key o).find? fun check => !check.2).map Prod.fst

/-- Accepts an entry that keeps all rules. -/
def verifyEntry (key : String) (o : FieldOptions) : Except Failure Unit :=
  match brokenRule? key o with
  | some rule => .error (.badEntry rule key o)
  | none => .ok ()

/-- Accepts a list of entries that all keep the rules. -/
def verifyEntries : List (String × FieldOptions) → Except Failure Unit
  | [] => .ok ()
  | (key, o) :: rest => do
    verifyEntry key o
    verifyEntries rest

end FluentGen.TypeMap
