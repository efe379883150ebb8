import FluentGen.Emit.Writer
import FluentGen.Failure
import FluentGen.Store.Path
import FluentGen.Text.Newline
import FluentGen.Text.Utf8

/-!
The files that a run reads and writes. A store holds files and folders by their location, which is
the list of names that leads to them from the working folder, from a folder above it, or from the
root. Writing a file makes the folders around it, and what has been made stays even if the file
itself cannot be written.
-/

namespace FluentGen

/-- What can be found at a location. -/
inductive Node where
  | file (bytes : List UInt8)
  | folder
  deriving DecidableEq, Repr

/-- Files and folders by location. The working folder, the folders above it and the root are always
there and are not listed. -/
structure Store where
  nodes : List (List String × Node) := []
  deriving DecidableEq, Repr, Inhabited

/-- A step that works on a store and may fail. A failure keeps what has been done before it. -/
abbrev Store.Step := ExceptT Failure (StateM Store)

namespace Store

/-- Whether a location leads to a folder that is always there: the working folder, one above it,
which is reached by two dots, or the root. -/
def isGiven (location : List String) : Bool :=
  location.all fun name => name = ".." || Text.startsWith "/" name

/-- The location that two dots lead to. -/
def above (location : List String) : List String :=
  if location.all (· = "..") then location ++ [".."]
  else if isGiven location then location
  else location.dropLast

/-- Where a path begins. -/
def start (path : Path) : List String :=
  if path.root.isEmpty then [] else [path.root]

/-- What is found at a location. -/
def node? (store : Store) (location : List String) : Option Node :=
  if isGiven location then some .folder else store.nodes.lookup location

/-- The store with something put at a location. -/
def put (store : Store) (location : List String) (node : Node) : Store :=
  ⟨(location, node) :: store.nodes.filter fun n => n.1 ≠ location⟩

/-- What is found at a location is what was put there last. -/
theorem node?_put (store : Store) (location sought : List String) (node : Node)
    (h : isGiven location = false) :
    (store.put location node).node? sought =
      if sought = location then some node else store.node? sought := by
  have lookup_filter : ∀ nodes : List (List String × Node), sought ≠ location →
      (nodes.filter fun n => n.1 ≠ location).lookup sought = nodes.lookup sought := by
    intro nodes hne
    induction nodes with
    | nil => rfl
    | cons head rest ih =>
      rw [List.filter_cons, List.lookup_cons, ← ih]
      by_cases hl : head.1 = location
      · have hs : (sought == head.1) = false := by
          rw [hl]
          exact beq_eq_false_iff_ne.2 hne
        rw [if_neg (by simpa using hl), hs]
      · rw [if_pos (by simpa using hl), List.lookup_cons]
  by_cases hs : sought = location
  · subst hs
    simp [node?, put, h]
  · simp only [node?, put, hs, if_false]
    rw [List.lookup_cons, lookup_filter store.nodes hs, beq_eq_false_iff_ne.2 hs]

/-- Follows the parts of a path from a folder, each of which has to be a folder. -/
def follow? (store : Store) : (location : List String) → List String → Option (List String)
  | location, [] => some location
  | location, part :: rest =>
    if part = ".." then follow? store (above location) rest
    else
      match store.node? (location ++ [part]) with
      | some .folder => follow? store (location ++ [part]) rest
      | _ => none

/-- The location that a path leads to, of which only the last name need not exist. -/
def locate? (store : Store) (path : Path) : Option (List String) :=
  match path.parts.getLast? with
  | none => some (start path)
  | some name => do
    let folder ← store.follow? (start path) path.parts.dropLast
    return if name = ".." then above folder else folder ++ [name]

/-- What a path leads to. -/
def find? (store : Store) (path : Path) : Option Node :=
  store.locate? path >>= store.node?

/-- The bytes of a file. -/
def bytes (store : Store) (path : Path) : Except Failure (List UInt8) :=
  match store.find? path with
  | some (.file bytes) => .ok bytes
  | _ => .error (.unreadableFile path.text)

/-- The text of a file with all its line breaks read as line feeds. -/
def text (store : Store) (path : Path) : Except Failure String := do
  match Text.ofUtf8? (← store.bytes path) with
  | some text => return Text.universalNewlines text
  | none => throw (.unreadableFile path.text)

/-- The names of what is in a folder, in order. -/
def names (store : Store) (path : Path) : List String :=
  match store.locate? path with
  | none => []
  | some location =>
    let inside := store.nodes.filterMap fun n =>
      if n.1.dropLast = location then n.1.getLast? else none
    (inside.foldl NameSet.add {}).toList

/-- Makes the folders of a path below a location where there are none, and gives the location of
the last one; none if a file is in the way. -/
def makeFolders (store : Store) : (location : List String) → List String →
    Store × Option (List String)
  | location, [] => (store, some location)
  | location, part :: rest =>
    if part = ".." then makeFolders store (above location) rest
    else
      let inner := location ++ [part]
      match store.node? inner with
      | some .folder => makeFolders store inner rest
      | some (.file _) => (store, none)
      | none => makeFolders (store.put inner .folder) inner rest

/-- Makes a folder and the folders around it, as far as no file is in the way. -/
def addFolder (store : Store) (path : Path) : Store :=
  (store.makeFolders (start path) path.parts).1

/-- Writes bytes to a file. -/
def write (path : Path) (bytes : List UInt8) : Step Unit := do
  let (store, folder) := (← get).makeFolders (start path) path.parts.dropLast
  set store
  let target := do
    let name ← path.parts.getLast?
    if name = ".." then none else return (← folder) ++ [name]
  match target with
  | none => throw (.unwritableFile path.text)
  | some location =>
    match store.node? location with
    | some .folder => throw (.unwritableFile path.text)
    | _ => set (store.put location (.file bytes))

/-- Writes a text to a file. -/
def writeText (path : Path) (text : String) : Step Unit :=
  write path (Text.utf8 text)

/-- Writes a text to a file unless the file reads as this text already, and says whether it has
been written. -/
def writeIfChanged (path : Path) (text : String) : Step Bool := do
  let store ← get
  match store.find? path with
  | some (.file _) =>
    let old ← ExceptT.mk (pure (store.text path))
    if old = text then return false
    else
      writeText path text
      return true
  | _ =>
    writeText path text
    return true

/-- The store that holds the given files, made one after the other. -/
def ofFiles (files : List (Path × List UInt8)) : Store :=
  files.foldl (fun store f => ((write f.1 f.2).run store).2) {}

/-- All files, in the order of their paths. -/
def files (store : Store) : List (String × List UInt8) :=
  (KeyMap.ofList <| store.nodes.filterMap fun n =>
    match n.2 with
    | .file bytes => some ("/".intercalate n.1, bytes)
    | .folder => none).entries

end Store

end FluentGen
