import FluentGen.Text.Case

/-!
The accessor names of C++ message classes. They are the field names in lower case, with an
underscore behind a name that C++ keeps for itself.
-/

namespace FluentGen.Name

/-- The reserved words of C++. -/
def reservedWords : List String := [
  "alignas", "alignof", "and", "and_eq", "asm", "auto", "bitand", "bitor", "bool", "break",
  "case", "catch", "char", "char8_t", "char16_t", "char32_t", "class", "co_await", "co_return",
  "co_yield", "compl", "concept", "const", "const_cast", "consteval", "constexpr", "constinit",
  "continue", "decltype", "default", "delete", "do", "double", "dynamic_cast", "else", "enum",
  "explicit", "export", "extern", "false", "float", "for", "friend", "goto", "if", "inline",
  "int", "long", "mutable", "namespace", "new", "noexcept", "not", "not_eq", "nullptr",
  "operator", "or", "or_eq", "private", "protected", "public", "register", "reinterpret_cast",
  "requires", "return", "short", "signed", "sizeof", "static", "static_assert", "static_cast",
  "struct", "switch", "template", "this", "thread_local", "throw", "true", "try", "typedef",
  "typeid", "typename", "union", "unsigned", "using", "virtual", "void", "volatile", "wchar_t",
  "while", "xor", "xor_eq"]

/-- The name in the C++ accessors of a field. -/
def accessor (field : String) : String :=
  let name := Text.lower field
  if reservedWords.contains name then name ++ "_" else name

end FluentGen.Name
