import FluentGen.Text.Basic

/-!
Paths of files. A path is kept by its parts: empty parts and dots in it mean nothing, so `a//b`,
`a/./b` and `a/b/` are one path.
-/

namespace FluentGen

/-- A path: the slashes that it begins with, and its parts. -/
structure Path where
  root : String := ""
  parts : List String
  deriving DecidableEq, Repr, Inhabited

namespace Path

/-- The slashes that count at the start of a path. Two are kept, any other number above zero is
one. -/
def rootOf (text : String) : String :=
  match (text.toList.takeWhile (· = '/')).length with
  | 0 => ""
  | 2 => "//"
  | _ => "/"

/-- The path that a text spells. -/
def ofText (text : String) : Path where
  root := rootOf text
  parts := (Text.split '/' text).filter fun part => !part.isEmpty && part != "."

/-- The text of a path. -/
def text (path : Path) : String :=
  let written := path.root ++ "/".intercalate path.parts
  if written.isEmpty then "." else written

end Path

end FluentGen
