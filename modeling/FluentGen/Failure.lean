import FluentGen.Options.Text
import FluentGen.Settings.Problem
import FluentGen.Text.Escape
import FluentGen.Text.Quoted

/-!
Why the generator stops. Each cause is a value of its own; the wording is in `Failure.message`.
-/

namespace FluentGen

/-- The rules for an entry of a type map. -/
inductive EntryRule where
  /-- The type holds a sigil of the built-in types. -/
  | sigilInType
  | nameSet
  | decoratedTypeAlone
  | typeTokenInValue
  | valueTokenInValue
  | emptyInclude
  | lineBreakInInclude
  /-- An automatic entry whose key has not the sigil of automatic types. -/
  | automaticKey
  | reservedKey
  | customKey
  | macroSet
  | emptyKey
  /-- An entry that a message may not change. -/
  | builtinEntry
  deriving DecidableEq, Repr

namespace EntryRule

/-- The wording for an entry that breaks the rule. -/
def message : EntryRule → String
  | sigilInType => "May not use '@' (beyond '@type@') in type:"
  | nameSet => "May not provide 'name':"
  | decoratedTypeAlone => "May not use 'decorated_type' without 'type':"
  | typeTokenInValue => "May not use '@type@' in 'value':"
  | valueTokenInValue => "May not use '@value@' in 'value':"
  | emptyInclude => "May not use empty 'include':"
  | lineBreakInInclude => "May not use new-line in 'include', use multiple includes:"
  | automaticKey => "Automatic types must start with '=':"
  | reservedKey => "Type names (key) starting with '@' or '%' are reserved for internal use:"
  | customKey =>
    "Custom keys must start with '$', followed by an alphabetical character, followed by any "
      ++ "number of alphanumeric characters:"
  | macroSet => "The \x60macro\x60 field can only be used for field annotations:"
  | emptyKey => "Must specify a non-empty 'key':"
  | builtinEntry => "Cannot update configuration of builtin types:"

end EntryRule

/-- A cause of failure. -/
inductive Failure where
  | badEntry (rule : EntryRule) (key : String) (options : FieldOptions)
  | unreadableTypeMap (custom : Bool)
  | duplicateKeys (keys : List String)
  | badSettings (problem : Settings.Problem)
  | notAMap (field : String)
  | lookupMismatch (special : Bool) (key : String)
  | noFiles
  | noMessages
  | mixedPackages
  | unknownMessageType (name field : String)
  | unknownEnumType (name field : String)
  | badDescriptorSet (source : String)
  | noCompiler
  | compilerFailed (complaint : String)
  /-- The system does not let the compiler start, or there is nothing where its output should be. -/
  | unusableCompiler
  | unreadableFile (path : String)
  | missingDependency (type dependency : String)
  | unknownFiles (files : List String)
  | unknownMessage (name : String)
  | unwritableFile (path : String)
  | notAnInteger (text : String)
  | notANumber (text : String)
  | unknownLevel (name : String)
  | badEscape (error : Text.EscapeError)
  | badOptionBytes
  | badPattern
  deriving DecidableEq, Repr

/-- The families of causes. -/
inductive Failure.Kind where
  | configuration
  | consistency
  | schema
  | missing
  | output
  | value
  | escapeMalformed
  | escapeUnrepresentable
  | wire
  | pattern
  deriving DecidableEq, Repr

namespace Failure

/-- The family of a cause. -/
def kind : Failure → Kind
  | badEntry .. | unreadableTypeMap _ | duplicateKeys _ | badSettings _ => .configuration
  | notAMap _ | lookupMismatch .. | noFiles | noMessages | mixedPackages => .consistency
  | unknownMessageType .. | unknownEnumType .. | badDescriptorSet _ | noCompiler
  | compilerFailed _ | unusableCompiler => .schema
  | unreadableFile _ | missingDependency .. | unknownFiles _ | unknownMessage _ => .missing
  | unwritableFile _ => .output
  | notAnInteger _ | notANumber _ | unknownLevel _ => .value
  | badEscape .malformed => .escapeMalformed
  | badEscape .unrepresentable => .escapeUnrepresentable
  | badOptionBytes => .wire
  | badPattern => .pattern

/-- Whether a run reports the cause and ends; any other cause breaks the run off. -/
def isReported : Failure → Bool
  | unusableCompiler => false
  | failure =>
    match failure.kind with
    | .configuration | .consistency | .schema | .missing | .output => true
    | _ => false

/-- The wording of a truth value in messages. -/
def truthText (b : Bool) : String :=
  if b then "True" else "False"

/-- The description of an entry of a type map. -/
def entryText (key : String) (options : FieldOptions) : String :=
  "key: '" ++ key ++ "' -> \x7b " ++ options.render ++ " \x7d"

/-- The wording of a cause. -/
def message : Failure → String
  | badEntry rule key options => rule.message ++ " " ++ entryText key options
  | unreadableTypeMap custom =>
    "Cannot parse " ++ if custom then "custom config file" else "proto builder config"
  | duplicateKeys keys =>
    "Configuration contains duplicate key(s): \"" ++ "\", \"".intercalate keys ++ "\""
  | badSettings problem => "Invalid arguments: " ++ problem.message
  | notAMap field => "Not a map field: " ++ field
  | lookupMismatch special key =>
    "Special lookup mismatch (special=" ++ truthText special ++ "). Raw type: '" ++ key ++ "'"
  | noFiles => "At least one proto_files required, none given"
  | noMessages => "At least one descriptor required."
  | mixedPackages => "All proto descriptors must be in the same package."
  | unknownMessageType name field =>
    "Message type '" ++ name ++ "' of field '" ++ field ++ "' not found."
  | unknownEnumType name field =>
    "Enum type '" ++ name ++ "' of field '" ++ field ++ "' not found."
  | badDescriptorSet source => "Could not parse descriptor set " ++ source
  | noCompiler => "protoc is not installed, install it or pass --descriptor_set"
  | compilerFailed complaint => "protoc failed: " ++ complaint
  | unusableCompiler => "protoc cannot be used"
  | unreadableFile path => "Error reading file " ++ path
  | missingDependency type dependency =>
    "Type: '" ++ type ++ "' has dependency '" ++ dependency
      ++ "' which is not configured in proto_builder/build_*.bzl."
  | unknownFiles files => "Could not load proto_db: (" ++ ",".intercalate files ++ ")"
  | unknownMessage name => "FieldDescriptor not found for: '" ++ name ++ "'"
  | unwritableFile path => "Could not write file at " ++ path
  | notAnInteger text => "invalid literal for int() with base 10: " ++ Text.quoted text
  | notANumber text => "could not convert string to float: " ++ Text.quoted text
  | unknownLevel name => "Unknown level: " ++ Text.quoted name
  | badEscape .malformed => "malformed escape"
  | badEscape .unrepresentable => "escape out of range"
  | badOptionBytes => "malformed annotation"
  | badPattern => "malformed pattern"

end Failure

end FluentGen
