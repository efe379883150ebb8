import FluentGen.Options.Text
import FluentGen.Text.Character

/-!
The keys that a type map spells in its text. A map keeps one entry of a key, so only the text shows
that a key has been given twice.

The text is passed over from left to right: a comment and a literal are skipped whole, so nothing
inside of them counts, and a word `key` with a colon and a literal behind it spells a key.
-/

namespace FluentGen.TypeMap

/-- The inside of a literal of which the opening quotation mark has been taken. A literal ends on
its line. -/
def literalInside? (quote : Char) : List Char → Option (List Char)
  | [] => none
  | c :: rest =>
    if c = quote then some []
    else if c = '\n' then none
    else if c = '\\' then
      match rest with
      | [] => none
      | d :: rest => if d = '\n' then none else do return c :: d :: (← literalInside? quote rest)
    else do return c :: (← literalInside? quote rest)

/-- The inside of a literal that begins a text. -/
def literal? : List Char → Option (List Char)
  | '"' :: rest => literalInside? '"' rest
  | '\'' :: rest => literalInside? '\'' rest
  | _ => none

/-- The key that is spelled at the start of a text, and the number of characters it takes. -/
def keyAt? : List Char → Option (List Char × Nat)
  | 'k' :: 'e' :: 'y' :: rest =>
    match rest.dropWhile Text.isBlank with
    | ':' :: behind =>
      let start := behind.dropWhile Text.isBlank
      (literal? start).map fun inside =>
        (inside, 3 + (rest.length - behind.length) + (behind.length - start.length)
          + inside.length + 2)
    | _ => none
  | _ => none

/-- How many characters are skipped at the start of a text: a comment, a literal, or one. -/
def passedOver (text : List Char) : Nat :=
  match text with
  | '#' :: rest => 1 + (rest.takeWhile (· ≠ '\n')).length
  | _ =>
    match literal? text with
    | some inside => inside.length + 2
    | none => 1

/-- The keys spelled in the rest of a text, of which `skip` characters are still to be passed over
and `inWord` says whether a word has just been going on. -/
def keysFrom : (skip : Nat) → (inWord : Bool) → List Char → List (List Char)
  | _, _, [] => []
  | skip + 1, _, c :: rest => keysFrom skip (Text.isWordLike c) rest
  | 0, inWord, c :: rest =>
    match if inWord then none else keyAt? (c :: rest) with
    | some (key, taken) => key :: keysFrom (taken - 1) (Text.isWordLike c) rest
    | none => keysFrom (passedOver (c :: rest) - 1) (Text.isWordLike c) rest

/-- The keys that a text spells, in their order. -/
def spelledKeys (text : String) : List String :=
  (keysFrom 0 false text.toList).map String.ofList

/-- The number of keys that a type map holds: its own and those of the data of its entries. -/
def keyCount (map : TypeMap) : Nat :=
  map.size + map.weight fun e => e.2.data.size

/-- The keys that occur more than once, in order and each listed once. -/
def repeatedKeys (keys : List String) : List String :=
  let counted : KeyMap Nat :=
    keys.foldl (fun map key => map.insert key ((map.get? key).getD 0 + 1)) {}
  (counted.entries.filter fun e => 1 < e.2).map Prod.fst

end FluentGen.TypeMap
