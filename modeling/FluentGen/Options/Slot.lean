import FluentGen.KeyMap
import FluentGen.TextFormat.Tree

/-!
How one option is written in the text format and read from it. An option is set at most once, is a
list of texts, or is a map; its values are written and read by a codec. A record of options is read
and written by the list of its slots, one for each option.
-/

namespace FluentGen

namespace TextFormat.Value

/-- The spelling of an atom behind a colon. -/
def atom? (colon : Bool) : Value → Option String
  | .atom spelling => if colon then some spelling else none
  | _ => none

/-- The text behind a colon. -/
def text? (colon : Bool) : Value → Option String
  | .text content => if colon then some content else none
  | _ => none

/-- The texts behind a colon: one, or a list. -/
def texts? (colon : Bool) : Value → Option (List String)
  | .list items => if colon then items.mapM (text? true) else none
  | value => (text? colon value).map ([·])

/-- The fields of a message. -/
def message? : Value → Option (List Field)
  | .message fields => some fields
  | _ => none

/-- The messages of a field that may have several: one, or a list. A colon may precede them. -/
def messages? : Value → Option (List (List Field))
  | .list items => items.mapM message?
  | value => (message? value).map ([·])

/-- The truth value behind a colon. -/
def bool? (colon : Bool) (value : Value) : Option Bool := do
  truth? (← value.atom? colon)

/-- The atom of a truth value. -/
def ofBool (b : Bool) : Value :=
  .atom (if b then "true" else "false")

end TextFormat.Value

open TextFormat (Field Value)

/-- How values of a type are written, and how they are read behind a colon or without one. -/
structure Codec (α : Type) where
  write : α → Value
  read? : (colon : Bool) → Value → Option α

namespace Codec

/-- Texts stand in quotes. -/
def text : Codec String := ⟨.text, fun colon value => value.text? colon⟩

/-- Truth values are atoms. -/
def flag : Codec Bool := ⟨.ofBool, fun colon value => value.bool? colon⟩

end Codec

/-- A part of a record that can be replaced without touching the rest. -/
structure Lens (S α : Type) where
  get : S → α
  set : S → α → S
  get_set : ∀ s a, get (set s a) = a := by intros; rfl
  set_get : ∀ s, set s (get s) = s := by intros; rfl
  set_set : ∀ s a b, set (set s a) b = set s b := by intros; rfl

/-- Sets an option that has not been set before. -/
def setOnce {α : Type} (old : Option α) (new : Option α) : Option (Option α) :=
  match old, new with
  | none, some a => some (some a)
  | _, _ => none

namespace MapEntry

/-- One field of a map entry. -/
def addField {α : Type} (codec : Codec α) (entry : Option String × Option α) :
    Field → Option (Option String × Option α)
  | .mk "key" colon value => do return (← setOnce entry.1 (value.text? colon), entry.2)
  | .mk "value" colon value => do return (entry.1, ← setOnce entry.2 (codec.read? colon value))
  | _ => none

/-- A map entry; a missing key is empty and a missing value is the given one. -/
def ofFields? {α : Type} (codec : Codec α) (missing : α) (fields : List Field) :
    Option (String × α) := do
  let (key, value) ← fields.foldlM (addField codec) (none, none)
  return (key.getD "", value.getD missing)

/-- The message of a map entry. -/
def toValue {α : Type} (codec : Codec α) (entry : String × α) : Value :=
  .message [.of "key" (.text entry.1), .of "value" (codec.write entry.2)]

end MapEntry

/-- An option of a record: its name in the text format, its values, and where it is kept. A missing
value of a map entry is the given one. -/
inductive Slot (S : Type) : Type 1 where
  | single {α : Type} (name : String) (codec : Codec α) (lens : Lens S (Option α))
  | repeated (name : String) (lens : Lens S (List String))
  | mapped {α : Type} (name : String) (codec : Codec α) (missing : α) (lens : Lens S (KeyMap α))

namespace Slot

variable {S : Type}

/-- The name of the option. -/
def name : Slot S → String
  | single name _ _ => name
  | repeated name _ => name
  | mapped name _ _ _ => name

/-- The values of the option in a record, each of which is written as one field. -/
def values (s : S) : Slot S → List Value
  | single _ codec lens => ((lens.get s).map codec.write).toList
  | repeated _ lens => (lens.get s).map .text
  | mapped _ codec _ lens => (lens.get s).entries.map (MapEntry.toValue codec)

/-- Adds a value of the option to a record. -/
def addValue (s : S) (colon : Bool) (value : Value) : Slot S → Option S
  | single _ codec lens => do return lens.set s (← setOnce (lens.get s) (codec.read? colon value))
  | repeated _ lens => do return lens.set s (lens.get s ++ (← value.texts? colon))
  | mapped _ codec missing lens => do
    let entries ← (← value.messages?).mapM (MapEntry.ofFields? codec missing)
    return lens.set s ((lens.get s).addAll entries)

/-- The fields of the options that are set, in the order of the slots. -/
def toFields (slots : List (Slot S)) (s : S) : List Field :=
  slots.flatMap fun slot => (slot.values s).map (Field.of slot.name)

/-- Adds a field to a record; an unknown name is an error. -/
def addField (slots : List (Slot S)) (s : S) (f : Field) : Option S :=
  match slots.find? fun slot => slot.name == f.name with
  | some slot => slot.addValue s f.colon f.value
  | none => none

/-- Adds fields to a record. -/
def addFields (slots : List (Slot S)) (s : S) (fields : List Field) : Option S :=
  fields.foldlM (addField slots) s

end Slot

end FluentGen
