import FluentGen.Builder.Expansion

/-!
The builders of several messages on their way into the same files. The messages have to be in one
package, and each of them sees the type map with the entries that it brings with it.
-/

namespace FluentGen

open Schema (Message Pool)

namespace Assembly

/-- What is put together, and how. -/
structure Setup where
  typeMap : TypeMap
  pool : Pool
  messages : List Message
  /-- How the files refer to the header. -/
  header : String
  maxFieldDepth : Option Nat := none
  useValidator : Bool := false
  validatorHeader : String := ""
  makeInterface : Bool := false
  /-- How the files refer to the interface. -/
  interfaceHeader : String := ""

/-- The package of messages that are all in the same one. -/
def packageOf : List Message → Except Failure (List String)
  | [] => .error .noMessages
  | first :: rest =>
    if rest.all (·.package == first.package) then
      .ok (if first.package.isEmpty then [] else Text.split '.' first.package)
    else .error .mixedPackages

/-- The builder of a message with the type map that it sees. -/
def builderOf (setup : Setup) (package : List String) (message : Message) :
    Except Failure Builder := do
  let typeMap ← setup.typeMap.update (message.options.getD {}).typeMap
  return Builder.ofMessage typeMap setup.pool package message
    { maxFieldDepth := setup.maxFieldDepth
      useValidator := setup.useValidator
      makeInterface := setup.makeInterface }

/-- The keys of the types that every class with a status uses. -/
def statusKeys : List String :=
  ["%LogSourceLocation", sourceLocationKey, "%StatusOr", "%Status"]

/-- Asks for the includes of the type with a key, if the type map has it. -/
def needsType (map : TypeMap) (key : String) : Emit Unit :=
  match map.get? key with
  | some o => Setter.needsOf o
  | none => pure ()

/-- Writes the code of a builder and asks for all includes of its class. -/
def writeBuilder (setup : Setup) (b : Builder) : Emit Unit := do
  if b.options.keepsStatus then .each statusKeys (needsType b.typeMap)
  if b.options.validates && !setup.validatorHeader.isEmpty then
    .needs .header setup.validatorHeader
  .needs .header "<utility>"
  .log Log.debug ("Writing builder " ++ b.className)
  b.write

/-- A builder and its code. -/
structure Part where
  builder : Builder
  code : Buffer

/-- Writes the code of builders one after the other. -/
def writeParts (setup : Setup) : List Builder → Emit (List Part)
  | [] => pure []
  | b :: rest => do
    let written := writeBuilder setup b
    written
    let code := Builder.collect { package := b.package } written.out
    return ⟨b, code⟩ :: (← writeParts setup rest)

end Assembly

/-- The code of all builders, ready to be laid out. -/
structure Assembly where
  setup : Assembly.Setup
  package : List String
  parts : List Assembly.Part

namespace Assembly

/-- The builders of a setup and their package. -/
def plan (setup : Setup) : Except Failure (List String × List Builder) := do
  let package ← packageOf setup.messages
  return (package, ← setup.messages.mapM (builderOf setup package))

/-- Writes the code of all builders. -/
def ofSetup (setup : Setup) : Emit Assembly := do
  let (package, builders) ← .lift (plan setup)
  return { setup, package, parts := ← writeParts setup builders }

end Assembly

end FluentGen
