/-!
Line breaks of text files. Reading takes every spelling of a line break for a line feed; writing
changes nothing.
-/

namespace FluentGen.Text

/-- Takes a carriage return, alone or before a line feed, for a line feed. -/
def readNewlines : List Char → List Char
  | [] => []
  | '\r' :: '\n' :: rest => '\n' :: readNewlines rest
  | '\r' :: rest => '\n' :: readNewlines rest
  | c :: rest => c :: readNewlines rest

/-- The text of a file's characters, with every line break a line feed. -/
def universalNewlines (text : String) : String :=
  String.ofList (readNewlines text.toList)

end FluentGen.Text
