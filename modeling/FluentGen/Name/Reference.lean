import FluentGen.Failure
import FluentGen.Pattern.Match
import FluentGen.Pattern.Reader

/-!
The name by which one generated file refers to another: its path without a leading folder that is
not part of references. Such folders are listed as patterns, separated by commas.
-/

namespace FluentGen.Name

/-- The pattern of a listed folder, with or without a slash at its end, and of all slashes behind
it. -/
def folderPattern? (folder : String) : Option Pattern :=
  let folder := (Text.stripEnd? "/" folder).getD folder
  Pattern.read? ("(?:" ++ folder ++ ")/*")

/-- The path without the first of the folders that begins it. -/
def withoutFolder (path : String) : (folders : List String) → Except Failure String
  | [] => .ok path
  | folder :: rest =>
    match folderPattern? folder with
    | none => .error .badPattern
    | some pattern =>
      match pattern.afterMatch? path with
      | some behind => .ok behind
      | none => withoutFolder path rest

/-- The reference to a path, given the list of folders that are left out. -/
def reference (path folders : String) : Except Failure String :=
  withoutFolder path (Text.split ',' folders)

end FluentGen.Name
