import FluentGen.Text.Substitution

/-!
Names of C++ types: scopes joined by `::`, the global scope in front, and the way a name is
shortened inside a package.
-/

namespace FluentGen.Name

/-- The fixed-width integer types and the C++ types that hold them. -/
def integerTypes : List (String × String) := [
  ("int32", "int32_t"),
  ("int64", "int64_t"),
  ("uint32", "uint32_t"),
  ("uint64", "uint64_t"),
  ("sint32", "int32_t"),
  ("sint64", "int64_t"),
  ("fixed32", "uint32_t"),
  ("fixed64", "uint64_t"),
  ("sfixed32", "int32_t"),
  ("sfixed64", "int64_t")]

/-- The characters of a dotted name with each dot written as a scope operator. -/
def dotsToScopes : List Char → List Char
  | [] => []
  | '.' :: rest => ':' :: ':' :: dotsToScopes rest
  | c :: rest => c :: dotsToScopes rest

/-- A name that has a colon behind its second character and does not begin with one gets the
global scope in front. -/
def globalScope (name : List Char) : List Char :=
  match name with
  | [] => []
  | c :: _ => if c ≠ ':' ∧ ':' ∈ name.drop 2 then ':' :: ':' :: name else name

/-- The fully qualified C++ name of a type that is named in the schema or in C++. Names of the
standard library stay as they are, integer types get their C++ names, and every other name that
has a scope begins at the global one. -/
def absolute (name : String) : String :=
  if Text.startsWith "std::" name then name
  else
    match integerTypes.lookup name with
    | some integer => integer
    | none => String.ofList (globalScope (dotsToScopes name.toList))

/-- The namespace that a package opens, from the global scope; empty without a package. -/
def namespaceOf (package : List String) : String :=
  if package.isEmpty then "" else "::" ++ "::".intercalate package

/-- A type name as it can be written inside the package's namespace: the namespace is left out if
something is left of the name without it. -/
def relativeTo (package : List String) (name : String) : String :=
  if package.isEmpty then name
  else
    match Text.stripStart? (namespaceOf package ++ "::") name with
    | some rest => if rest.isEmpty then name else rest
    | none => name

/-- Whether a parameter of the type is passed by value: views, pointers and references are. -/
def isPassedByValue (type : String) : Bool :=
  type == "absl::string_view" || Text.endsWith "*" type || Text.endsWith "&" type

/-- The type of a parameter; if asked for, as a constant reference unless it is passed by value. -/
def parameter (byReference : Bool) (type : String) : String :=
  if byReference && !isPassedByValue type then "const " ++ type ++ "&" else type

end FluentGen.Name
