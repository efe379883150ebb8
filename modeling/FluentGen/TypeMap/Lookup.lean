import FluentGen.Name.Style
import FluentGen.TypeMap.Verify

/-!
What a type map answers while code is written: the options of a type, the types that the generated
code itself uses, the automatic types, and the expansions of the keys with a sigil.
-/

namespace FluentGen.TypeMap

/-- The options of a key. A key with the sigil of special types is looked up as special, any other
one is not. -/
def typeInfo (map : TypeMap) (key : String) (special : Bool := false) :
    Except Failure (Option FieldOptions) :=
  if special != hasSigil specialSigil key then .error (.lookupMismatch special key)
  else .ok (map.get? key)

/-- Whether a key is expanded: one with the sigil of special or of custom types. -/
def isExpanded (key : String) : Bool :=
  hasSigil specialSigil key || hasSigil customSigil key

/-- The entries whose keys are expanded, by key. -/
def specialTypes (map : TypeMap) : List (String × FieldOptions) :=
  map.entries.filter fun e => isExpanded e.1

/-- A list of entries with one added behind the others; the first entry of its key is replaced
where it stands. -/
def putEntry {α : Type} (key : String) (value : α) : List (String × α) → List (String × α)
  | [] => [(key, value)]
  | (k, v) :: rest =>
    if k = key then (k, value) :: rest else (k, v) :: putEntry key value rest

/-- The automatic entries by the name of their type, which is the key without its sigil. -/
def automaticTypes (map : TypeMap) : List (String × FieldOptions) :=
  (map.entries.filter fun e => e.2.automatic.getD false).foldl
    (fun found e => putEntry (Text.tail e.1) e.2 found) []

/-- The automatic entry of a C++ type. -/
def automaticType? (map : TypeMap) (type : String) : Option FieldOptions :=
  (automaticTypes map).lookup type

/-- The expansions of one key: its type, and with a parameter name or a value what can be written
with them. -/
def expansionsOf (key : String) (o : FieldOptions) : List (String × String) :=
  let type := textOf o.type
  let value := textOf o.value
  let given := textOf o.param
  let param := Name.snakeCase (if given.isEmpty then Text.tail key else given)
  let declaration := type ++ " " ++ param
  [(key, type)]
    ++ (if param.isEmpty then []
        else [(key ++ "%param", param), (key ++ "+param", declaration)])
    ++ (if value.isEmpty then [] else [(key ++ "%value", value)])
    ++ (if param.isEmpty || value.isEmpty then []
        else [(key ++ "+param=value", declaration ++ " = " ++ value)])

/-- The expansions of all keys. -/
def expansions (map : TypeMap) : KeyMap String :=
  KeyMap.ofList ((specialTypes map).flatMap fun e => expansionsOf e.1 e.2)

/-- An expansion; one that does not exist is empty. -/
def expansion (map : TypeMap) (key : String) : String :=
  ((expansions map).get? key).getD ""

/-- The options with those of the entry that their macro names laid below. -/
def resolveMacro (map : TypeMap) (o : FieldOptions) : FieldOptions :=
  let key := textOf o.macroKey
  if key.isEmpty then o
  else
    match map.get? key with
    | none => o
    | some below => below.merge o

/-- Whether a message may not change an entry: the built-in keys with a reserved sigil. -/
def isProtected (key : String) : Bool :=
  isReservedKey key && builtinKeys.contains key

/-- Adds the entries that a message brings with it, which have to keep the rules. -/
def extend (map : TypeMap) : List (String × FieldOptions) → Except Failure TypeMap
  | [] => .ok map
  | (key, o) :: rest =>
    if isProtected key then .error (.badEntry .builtinEntry key o)
    else do
      verifyEntry key o
      extend (map.insert key o) rest

/-- A type map with the entries of another one on top. -/
def update (map added : TypeMap) : Except Failure TypeMap :=
  map.extend added.entries

end FluentGen.TypeMap
