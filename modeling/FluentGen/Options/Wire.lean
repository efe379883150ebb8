import FluentGen.Options.Text
import FluentGen.Wire

/-!
Options in binary form. Records are taken one after the other: a scalar replaces the one before, a
list grows, an entry replaces that of its key, and a record that does not fit is passed over.
Reading bytes one after the other therefore lays the options of the later ones over those of the
earlier ones.
-/

namespace FluentGen

open Wire (Record Payload)

namespace FieldOptions

/-- The mode with a number, of which 32 bits count. -/
def modeOfNumber? (n : Nat) : Option OutputMode :=
  OutputMode.ofNumber? (n % Nat.pow 2 32)

end FieldOptions

namespace MapEntry

/-- One record of a map entry: 1 is the key, and 2 the value, which is read onto the last one. -/
def addRecord {α : Type} (read : α → List UInt8 → Option α) (entry : String × α) (r : Record) :
    Option (String × α) :=
  match r with
  | ⟨1, .bytes content⟩ => do return (← Text.ofUtf8? content, entry.2)
  | ⟨2, .bytes content⟩ => do return (entry.1, ← read entry.2 content)
  | _ => some entry

/-- A map entry from its bytes; what is missing is empty. -/
def ofBytes? {α : Type} (depth : Nat) (read : α → List UInt8 → Option α) (missing : α)
    (bytes : List UInt8) : Option (String × α) := do
  (← Wire.records? depth bytes).foldlM (addRecord read) ("", missing)

end MapEntry

namespace FieldOptions

/-- One record of the options. -/
def addRecord (depth : Nat) (o : FieldOptions) (r : Record) : Option FieldOptions :=
  match r with
  | ⟨number, .bytes content⟩ =>
    if number = 10 then
      match depth with
      | 0 => none
      | depth + 1 => do
        let (key, value) ← MapEntry.ofBytes? depth (fun _ v => Text.ofUtf8? v) "" content
        return { o with data := o.data.insert key value }
    else do
      match number with
      | 1 => return { o with type := some (← Text.ofUtf8? content) }
      | 2 => return { o with decoratedType := some (← Text.ofUtf8? content) }
      | 3 => return { o with name := some (← Text.ofUtf8? content) }
      | 4 => return { o with value := some (← Text.ofUtf8? content) }
      | 5 => return { o with conversion := some (← Text.ofUtf8? content) }
      | 6 => return { o with predicate := some (← Text.ofUtf8? content) }
      | 7 => return { o with includes := o.includes ++ [← Text.ofUtf8? content] }
      | 8 => return { o with sourceIncludes := o.sourceIncludes ++ [← Text.ofUtf8? content] }
      | 15 => return { o with macroKey := some (← Text.ofUtf8? content) }
      | 16 => return { o with param := some (← Text.ofUtf8? content) }
      | 17 => return { o with dependencies := o.dependencies ++ [← Text.ofUtf8? content] }
      | _ => return o
  | ⟨number, .varint n⟩ =>
    some <| match number with
    | 9 => { o with output := modeOfNumber? n <|> o.output }
    | 11 => { o with addSourceLocation := some (n != 0) }
    | 12 => { o with override := some (n != 0) }
    | 13 => { o with recurse := some (n != 0) }
    | 14 => { o with automatic := some (n != 0) }
    | _ => o
  | _ => some o

/-- Reads the options of some bytes onto others. -/
def addBytes (depth : Nat) (o : FieldOptions) (bytes : List UInt8) : Option FieldOptions := do
  (← Wire.records? depth bytes).foldlM (addRecord depth) o

end FieldOptions

namespace MessageOptions

/-- One record of the options. -/
def addRecord (depth : Nat) (o : MessageOptions) (r : Record) : Option MessageOptions :=
  match r with
  | ⟨number, .bytes content⟩ =>
    if number = 12 then
      match depth with
      | depth + 2 => do
        let (key, value) ← MapEntry.ofBytes? (depth + 1) (FieldOptions.addBytes depth) {} content
        return { o with typeMap := o.typeMap.insert key value }
      | _ => none
    else do
      match number with
      | 1 => return { o with className := some (← Text.ofUtf8? content) }
      | 2 => return { o with rootData := some (← Text.ofUtf8? content) }
      | 3 => return { o with rootName := some (← Text.ofUtf8? content) }
      | 8 => return { o with includes := o.includes ++ [← Text.ofUtf8? content] }
      | 9 => return { o with builderIncludes := o.builderIncludes ++ [← Text.ofUtf8? content] }
      | 10 => return { o with sourceIncludes := o.sourceIncludes ++ [← Text.ofUtf8? content] }
      | 11 => return { o with baseClasses := o.baseClasses ++ [← Text.ofUtf8? content] }
      | _ => return o
  | ⟨number, .varint n⟩ =>
    some <| match number with
    | 4 => { o with useBuild := some (n != 0) }
    | 5 => { o with useStatus := some (n != 0) }
    | 6 => { o with useValidator := some (n != 0) }
    | 7 => { o with useConversion := some (n != 0) }
    | _ => o
  | _ => some o

/-- Reads the options of some bytes onto others. -/
def addBytes (depth : Nat) (o : MessageOptions) (bytes : List UInt8) : Option MessageOptions := do
  (← Wire.records? depth bytes).foldlM (addRecord depth) o

end MessageOptions

namespace Annotations

/-- The number of the field annotations among the options of a field. -/
def fieldNumber : Nat := 50430

/-- The number of the message annotation among the options of a message. -/
def messageNumber : Nat := 50431

/-- The annotations among the options of a field, in order. -/
def ofFieldBytes? (bytes : List UInt8) : Option (List FieldOptions) := do
  let records ← Wire.records? Wire.depthLimit bytes
  (Wire.allBytes fieldNumber records).mapM (FieldOptions.addBytes (Wire.depthLimit - 1) {})

/-- The annotation among the options of a message, if there is one. -/
def ofMessageBytes? (bytes : List UInt8) : Option (Option MessageOptions) := do
  let records ← Wire.records? Wire.depthLimit bytes
  (Wire.allBytes messageNumber records).foldlM
    (fun found content => do
      return some (← MessageOptions.addBytes (Wire.depthLimit - 1) (found.getD {}) content))
    none

end Annotations

end FluentGen
