import FluentGen.Assembly.Basic

/-!
The include lines of a file. Each include is written once; those of the system come first, with an
empty line between them and the others.
-/

namespace FluentGen.Assembly

/-- Names in quotes, as they stand in include lines. -/
def inQuotes (name : String) : String := "\"" ++ name ++ "\""

/-- The operands that the code of all parts asks for in some channels. The interface is included
wherever there is one. -/
def operands (a : Assembly) (channels : List Channel) : NameSet :=
  let asked := a.parts.flatMap fun part =>
    channels.flatMap fun c => (part.code.includes.get c).toList
  let interface :=
    if a.setup.makeInterface then [inQuotes a.setup.interfaceHeader] else []
  (asked ++ interface).foldl NameSet.add {}

/-- An operand without the remark that it is passed on. -/
def withoutRemark (operand : String) : String :=
  (Text.stripEnd? Schema.exportRemark operand).getD operand

/-- Include lines in their groups. -/
def grouped (operands : List String) : List String :=
  let line (operand : String) : String := "#include " ++ operand
  let (system, other) := operands.partition (Text.startsWith "<")
  system.map line ++ (if system.isEmpty || other.isEmpty then [] else [""]) ++ other.map line

/-- The include lines for some channels without those of dropped files. `plain` leaves the remarks
out. -/
def includeLines (a : Assembly) (channels : List Channel) (plain : Bool := false)
    (dropped : List String := []) : List String :=
  let operands := (a.operands channels).toList.map fun operand =>
    if plain then withoutRemark operand else operand
  grouped (operands.filter fun operand => !dropped.contains operand)

/-- What the interface does not include: the header, itself, and what is meant for the builders
alone. -/
def droppedFromInterface (a : Assembly) : List String :=
  [inQuotes a.setup.header, inQuotes a.setup.interfaceHeader]
    ++ a.parts.flatMap fun part => part.builder.options.builderIncludes.map Name.includeOperand

/-- The include sections of the dictionary with their lines. -/
def includeSections (a : Assembly) : List (String × List String) := [
  ("INCLUDES", a.includeLines [.header, .source]),
  ("HEADER_INCLUDES", a.includeLines [.header]),
  ("INTERFACE_INCLUDES", a.includeLines [.header] false a.droppedFromInterface),
  ("SOURCE_INCLUDES", a.includeLines [.source] true [inQuotes a.setup.header])]

end FluentGen.Assembly
