import FluentGen.TypeMap.Spelling
import FluentGen.TypeMap.Verify

/-!
Loading a type map from text. A second text may add entries and replace those of the first; all
entries have to keep the rules. An automatic entry is filed under the C++ name of its type and does
not recurse unless it says so.
-/

namespace FluentGen.TypeMap

/-- Reads a type map from its text, in which no key may be given twice. -/
def ofText (custom : Bool) (text : String) : Except Failure TypeMap :=
  match TypeMap.read? text with
  | none => .error (.unreadableTypeMap custom)
  | some map =>
    let spelled := spelledKeys text
    if spelled.length = keyCount map then .ok map
    else .error (.duplicateKeys (repeatedKeys spelled))

/-- The key under which an entry is filed. -/
def filedKey (key : String) (o : FieldOptions) : String :=
  if o.automatic.getD false then
    String.singleton automaticSigil ++ Name.absolute (Text.tail key)
  else key

/-- The options that are filed for an entry. -/
def filedOptions (o : FieldOptions) : FieldOptions :=
  if o.automatic.getD false && o.recurse.isNone then { o with recurse := some false } else o

/-- The entry that is filed for an entry. -/
def filedEntry (e : String × FieldOptions) : String × FieldOptions :=
  (filedKey e.1 e.2, filedOptions e.2)

/-- Files all entries, in the order of their keys. -/
def file (map : TypeMap) : TypeMap :=
  KeyMap.ofList (map.entries.map filedEntry)

/-- Accepts a type map whose entries keep the rules, and files its entries. -/
def accept (map : TypeMap) : Except Failure TypeMap := do
  verifyEntries map.entries
  return file map

/-- Accepts a type map with a custom text on top. -/
def acceptWith (map : TypeMap) (custom : Option String) : Except Failure TypeMap := do
  match custom with
  | none => accept map
  | some text => accept (map.union (← ofText true text))

/-- Loads a type map from its text, with a custom text on top. -/
def load (text : String) (custom : Option String := none) : Except Failure TypeMap := do
  acceptWith (← ofText false text) custom

end FluentGen.TypeMap
