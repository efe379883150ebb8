import FluentGen.Failure
import FluentGen.Name.Guard
import FluentGen.Text.Basic

/-!
The build targets that the entries of a type map depend on. All of them have to be listed; labels
are compared in their full form.
-/

namespace FluentGen.TypeMap

/-- The labels that a text lists, one a line, in their full form. Empty lines are skipped. -/
def listedLabels (text : String) : List String :=
  ((Text.lines text).filter fun line => !line.isEmpty).map Name.fullLabel

/-- The dependencies of all entries, each with the key of its entry. -/
def dependencies (map : TypeMap) : List (String × String) :=
  map.entries.flatMap fun e => e.2.dependencies.map fun dependency => (e.1, dependency)

/-- Accepts a type map whose dependencies are all listed in a text. -/
def verifyDependencies (map : TypeMap) (text : String) : Except Failure Unit :=
  let listed := listedLabels text
  match (dependencies map).find? fun d => !listed.contains (Name.fullLabel d.2) with
  | some (type, dependency) => .error (.missingDependency type dependency)
  | none => .ok ()

end FluentGen.TypeMap
