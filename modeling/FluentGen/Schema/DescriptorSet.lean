import FluentGen.Options.Wire
import FluentGen.Schema.Declaration

/-!
Schema files from a binary descriptor set.

The set is checked as a whole first, down to the messages in it that are not used here. What the
options of fields and messages carry besides is opaque to that check; it is read later, and options
that cannot be read make the declaration carry the failure.
-/

namespace FluentGen.Schema.DescriptorSet

open Wire (Record Payload)

/-- The messages of a descriptor set that contain other messages or packed numbers. -/
inductive Shape where
  | set
  | file
  | message
  | field
  | enum
  | enumValue
  | service
  | method
  | oneof
  | extensionRange
  | extensionRangeOptions
  | fileOptions
  | messageOptions
  | fieldOptions
  | oneofOptions
  | enumOptions
  | enumValueOptions
  | serviceOptions
  | methodOptions
  | uninterpretedOption
  | sourceInfo
  | location
  /-- A message of scalars only. -/
  | plain
  deriving DecidableEq, Repr

/-- What the payload of a field is, as far as it has to be checked. -/
inductive Content where
  | message (shape : Shape)
  | numbers
  deriving DecidableEq, Repr

/-- The fields of a message whose payloads have to be checked. -/
def contents : Shape → List (Nat × Content)
  | .set => [(1, .message .file)]
  | .file => [(4, .message .message), (5, .message .enum), (6, .message .service),
      (7, .message .field), (8, .message .fileOptions), (9, .message .sourceInfo), (10, .numbers),
      (11, .numbers)]
  | .message => [(2, .message .field), (3, .message .message), (4, .message .enum),
      (5, .message .extensionRange), (6, .message .field), (7, .message .messageOptions),
      (8, .message .oneof), (9, .message .plain)]
  | .field => [(8, .message .fieldOptions)]
  | .enum => [(2, .message .enumValue), (3, .message .enumOptions), (4, .message .plain)]
  | .enumValue => [(3, .message .enumValueOptions)]
  | .service => [(2, .message .method), (3, .message .serviceOptions)]
  | .method => [(4, .message .methodOptions)]
  | .oneof => [(2, .message .oneofOptions)]
  | .extensionRange => [(3, .message .extensionRangeOptions)]
  | .extensionRangeOptions =>
    [(999, .message .uninterpretedOption), (2, .message .plain), (50, .message .plain)]
  | .fileOptions => [(50, .message .plain), (999, .message .uninterpretedOption)]
  | .messageOptions => [(12, .message .plain), (999, .message .uninterpretedOption)]
  | .fieldOptions => [(19, .numbers), (20, .message .plain), (21, .message .plain),
      (22, .message .plain), (999, .message .uninterpretedOption)]
  | .oneofOptions => [(1, .message .plain), (999, .message .uninterpretedOption)]
  | .enumOptions => [(7, .message .plain), (999, .message .uninterpretedOption)]
  | .enumValueOptions =>
    [(2, .message .plain), (4, .message .plain), (999, .message .uninterpretedOption)]
  | .serviceOptions => [(34, .message .plain), (999, .message .uninterpretedOption)]
  | .methodOptions => [(35, .message .plain), (999, .message .uninterpretedOption)]
  | .uninterpretedOption => [(2, .message .plain)]
  | .sourceInfo => [(1, .message .location)]
  | .location => [(1, .numbers), (2, .numbers)]
  | .plain => []

/-- Whether bytes are a message of the shape, nested no deeper than allowed. -/
def isWellFormed : (depth : Nat) → Shape → List UInt8 → Bool
  | 0, shape, bytes =>
    match Wire.records? 0 bytes with
    | none => false
    | some records => records.all fun r =>
      match (contents shape).lookup r.number, r.payload with
      | some (.message _), .bytes _ => false
      | some .numbers, .bytes content => Wire.areVarints (content.length + 1) content
      | _, _ => true
  | depth + 1, shape, bytes =>
    match Wire.records? (depth + 1) bytes with
    | none => false
    | some records => records.all fun r =>
      match (contents shape).lookup r.number, r.payload with
      | some (.message inner), .bytes content => isWellFormed depth inner content
      | some .numbers, .bytes content => Wire.areVarints (content.length + 1) content
      | _, _ => true

/-- The last text of a field; a field that is missing is empty. -/
def text? (number : Nat) (records : List Record) : Option String :=
  match Wire.lastBytes? number records with
  | none => some ""
  | some bytes => Text.ofUtf8? bytes

/-- All texts of a field. -/
def texts? (number : Nat) (records : List Record) : Option (List String) :=
  (Wire.allBytes number records).mapM Text.ofUtf8?

/-- The options of a declaration, which may come in several parts; none if there is no part. -/
def options? (number : Nat) (records : List Record) : Option (List UInt8) :=
  match Wire.allBytes number records with
  | [] => none
  | parts => some parts.flatten

/-- The records of a message that has been checked. -/
def records? (bytes : List UInt8) : Option (List Record) :=
  Wire.records? Wire.depthLimit bytes

/-- A number of 32 bits with a sign. -/
def int32 (n : Nat) : Int :=
  let low := n % Nat.pow 2 32
  if low < Nat.pow 2 31 then Int.ofNat low else Int.ofNat low - Int.ofNat (Nat.pow 2 32)

/-- What is declared, or the failure to read it. -/
def readable {α : Type} (found : Option α) : Except Failure α :=
  match found with
  | some a => .ok a
  | none => .error .badOptionBytes

/-- The last number of a field that names one of the given values. -/
def lastNamed? {α : Type} (ofNumber? : Nat → Option α) (number : Nat) (records : List Record) :
    Option α :=
  ((records.filter (·.number == number)).filterMap fun r =>
    r.payload.number?.bind fun n => ofNumber? (n % Nat.pow 2 32)).getLast?

/-- A declared field. -/
def fieldDecl? (bytes : List UInt8) : Option FieldDecl := do
  let records ← records? bytes
  return {
    name := ← text? 1 records
    number := int32 ((Wire.lastNumber? 3 records).getD 0)
    kind := (lastNamed? FieldKind.ofNumber? 5 records).getD .double
    label := (lastNamed? Label.ofNumber? 4 records).getD .optional
    typeName := ← text? 6 records
    default := ← match Wire.lastBytes? 7 records with
      | none => some none
      | some bytes => (Text.ofUtf8? bytes).map some
    annotations := match options? 8 records with
      | none => .ok []
      | some bytes => readable (Annotations.ofFieldBytes? bytes) }

/-- A declared enum. -/
def enumDecl? (bytes : List UInt8) : Option EnumDecl := do
  let records ← records? bytes
  let values ← (Wire.allBytes 2 records).mapM fun value => do text? 1 (← records? value)
  return { name := ← text? 1 records, values }

/-- A declared message. Messages are nested no deeper than the whole set is. -/
def messageDecl? : (depth : Nat) → List UInt8 → Option MessageDecl
  | 0, _ => none
  | depth + 1, bytes => do
    let records ← records? bytes
    let options := options? 7 records
    let optionRecords := (options.bind records?).getD []
    return {
      name := ← text? 1 records
      fields := ← (Wire.allBytes 2 records).mapM fieldDecl?
      nested := ← (Wire.allBytes 3 records).mapM (messageDecl? depth)
      enums := ← (Wire.allBytes 4 records).mapM enumDecl?
      isMapEntry := (Wire.lastNumber? 7 optionRecords).getD 0 != 0
      options := match options with
        | none => .ok none
        | some bytes => readable (Annotations.ofMessageBytes? bytes) }

/-- A schema file. -/
def fileDecl? (bytes : List UInt8) : Option FileDecl := do
  let records ← records? bytes
  return {
    name := ← text? 1 records
    package := ← text? 2 records
    dependencies := ← texts? 3 records
    messages := ← (Wire.allBytes 4 records).mapM (messageDecl? Wire.depthLimit)
    enums := ← (Wire.allBytes 5 records).mapM enumDecl? }

/-- The files of a descriptor set. -/
def files? (bytes : List UInt8) : Option (List FileDecl) := do
  if !isWellFormed Wire.depthLimit .set bytes then none
  (Wire.allBytes 1 (← records? bytes)).mapM fileDecl?

/-- The files of a descriptor set that comes from a source. -/
def read (source : String) (bytes : List UInt8) : Except Failure (List FileDecl) :=
  match files? bytes with
  | some files => .ok files
  | none => .error (.badDescriptorSet source)

end FluentGen.Schema.DescriptorSet
