import FluentGen.Assembly.Includes
import FluentGen.Layout

/-!
The files of an assembly: the dictionary that the layouts walk, and the lines that come out, in
which no two empty lines follow each other.
-/

namespace FluentGen.Assembly

/-- The text without the first of the endings that it has. -/
def withoutEnding (endings : List String) (text : String) : String :=
  (endings.findSome? fun ending => Text.stripEnd? ending text).getD text

/-- The text without the first of the beginnings that it has. -/
def withoutStart (starts : List String) (text : String) : String :=
  (starts.findSome? fun start => Text.stripStart? start text).getD text

/-- The name of the message's class inside the namespace of the package. -/
def messageType (b : Builder) : String :=
  let inner := "::".intercalate b.package
  withoutStart ["::" ++ inner ++ "::", inner ++ "::"]
    (Name.relativeTo b.package (Name.absolute b.message.fullName))

/-- The values of a builder. The expansions of its type map are among them. -/
def builderValues (b : Builder) : List (String × String) :=
  let bases := b.options.baseClasses
  [ ("CLASS_NAME", b.className),
    ("INTERFACE_NAME", b.className ++ "Interface"),
    ("BASE_CLASSES", if bases.isEmpty then "" else " : " ++ ", ".intercalate bases),
    ("NAMESPACE", "::".intercalate b.package),
    ("PROTO_TYPE", messageType b),
    ("PROTO_TYPE_SHORT", Name.relativeTo b.package (Name.absolute b.message.name)),
    ("ROOT_DATA", withoutEnding [".", "->"] b.options.data),
    ("VALIDATE_DATA", if b.options.validates then "ValidateData();" else "")]
    ++ (TypeMap.expansions b.typeMap).entries

/-- The section for a feature that a builder has, or the one for a feature that it has not. -/
def featureSections (b : Builder) : List String :=
  let name (feature : String) (has : Bool) : String :=
    (if has then "USE_" else "NOT_") ++ feature
  [ name "BUILD" b.options.buildsValue,
    name "CONVERSION" b.options.converts,
    name "STATUS" b.options.keepsStatus,
    name "VALIDATOR" b.options.validates]

/-- Adds the section of a builder, with its values, its code, and a section for each feature. -/
def addBuilder (d : Dictionary) (part : Part) : Dictionary :=
  let b := part.builder
  let (d, scope) := d.addSection 0 "BUILDER"
  let d := d.setValues scope (builderValues b)
  let d := d.setValues scope [
    ("GENERATED_HEADER_CODE", part.code.contents .header),
    ("GENERATED_INTERFACE_CODE", part.code.contents .interface),
    ("GENERATED_SOURCE_CODE", part.code.contents .source)]
  (featureSections b).foldl (fun d feature => d.addSectionWith scope feature (builderValues b)) d

/-- Adds a section with one value for each item of a list. -/
def addSections (d : Dictionary) (name key : String) (items : List String) : Dictionary :=
  items.foldl (fun d item => d.addSectionWith 0 name [(key, item)]) d

/-- The dictionary of all values. -/
def dictionary (a : Assembly) : Dictionary :=
  let setup := a.setup
  let d := (Dictionary.root "ProtoBuilder").setValues 0 [
    ("HEADER_GUARD", Name.headerGuard setup.header),
    ("INTERFACE_GUARD", Name.interfaceGuard setup.header),
    ("HEADER_FILE", setup.header),
    ("INTERFACE_FILE", if setup.makeInterface then setup.interfaceHeader else "")]
  let d := a.includeSections.foldl (fun d s => addSections d s.1 "INCLUDE" s.2) d
  let d := addSections d "NAMESPACES" "NAMESPACE" a.package
  let d := addSections d "ALL_NAMESPACES" "NAMESPACE"
    (if a.package.isEmpty then [] else ["::".intercalate a.package])
  let d := addSections d "NAMESPACES_END" "NAMESPACE" a.package.reverse
  a.parts.foldl addBuilder d

/-- The channels that are written. -/
def channels (a : Assembly) : List Channel :=
  if a.setup.makeInterface then [.header, .source, .interface] else [.header, .source]

/-- Lays out the files of an assembly into a buffer. Every file ends with a line break. -/
def layOut (a : Assembly) (buffer : Buffer := {}) : Buffer :=
  let d := a.dictionary
  let lines := a.channels.flatMap fun c =>
    (Text.lines (Layout.render d c) ++ [""]).map (Emission.line c)
  ((⟨[Layer.singleEmptyLines], buffer⟩ : Stack).take lines).buffer

end FluentGen.Assembly
