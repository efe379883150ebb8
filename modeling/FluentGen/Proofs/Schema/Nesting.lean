import FluentGen.Proofs.Name.Scopes
import FluentGen.Proofs.Schema.Resolution

/-!
The names around a message. A loaded message knows the names of the messages around it and the full
name of the outermost one, and its full name is made of these and the package of its file.
-/

namespace FluentGen.Schema

namespace Message

/-- The names of the messages around a message, the outermost first, and its own. -/
def nesting (m : Message) : List String :=
  m.enclosing ++ [m.name]

/-- A message of a package, whose names spell its place in the nesting. -/
structure NestedIn (package : String) (m : Message) : Prop where
  fullName : m.fullName = m.nesting.foldl qualify package
  outermost : m.outermost = qualify package (m.enclosing.head?.getD m.name)

end Message

section Names

open Name (dotPath)

variable {package : String} {m : Message}

theorem foldl_qualify (h : package ≠ "") (names : List String) :
    names.foldl qualify package = dotPath (package :: names) := by
  induction names generalizing package with
  | nil => exact (Name.dotPath_singleton package).symm
  | cons first rest ih =>
    have hopen : package.isEmpty = false := String.isEmpty_eq_false_iff.2 h
    have hqualified : qualify package first = package ++ "." ++ first := by
      rw [qualify, hopen]
      rfl
    have hne : qualify package first ≠ "" := by
      rw [hqualified]
      simp
    rw [List.foldl_cons, ih hne, hqualified, dotPath, String.intercalate_cons_append, dotPath,
      String.intercalate_cons_cons]

theorem Message.nesting_ne_nil (m : Message) : m.nesting ≠ [] := by
  simp [Message.nesting]

theorem Message.NestedIn.fullName_eq {scopes : List String} (h : m.NestedIn (dotPath scopes))
    (hopen : dotPath scopes ≠ "") (hscopes : scopes ≠ []) :
    m.fullName = dotPath (scopes ++ m.nesting) := by
  rw [h.fullName, foldl_qualify hopen, Name.dotPath_append hscopes m.nesting_ne_nil,
    ← List.singleton_append, Name.dotPath_append (List.cons_ne_nil _ _) m.nesting_ne_nil,
    Name.dotPath_singleton]

/-- The package of a message is that of its file. -/
theorem Message.NestedIn.package_eq (h : m.NestedIn package)
    (hnames : ∀ n ∈ m.nesting, '.' ∉ n.toList) : m.package = package := by
  have hfirst : '.' ∉ (m.enclosing.head?.getD m.name).toList := by
    have hmem : m.enclosing.head?.getD m.name ∈ m.nesting := by
      rw [Message.nesting]
      cases m.enclosing with
      | nil => exact List.mem_cons_self
      | cons first rest => exact List.mem_cons_self
    exact hnames _ hmem
  rw [Message.package, h.outermost, qualify]
  by_cases hempty : package.isEmpty = true
  · rw [if_pos hempty, Text.cutLast_of_not_mem hfirst, String.isEmpty_iff.1 hempty]
  · rw [if_neg hempty]
    exact congrArg Prod.fst (Text.cutLast_append hfirst package)

end Names

/-- Surroundings in a package, whose scope and outermost message are those of the messages around. -/
structure Surroundings.NestedIn (package : String) (s : Surroundings) : Prop where
  scope : s.scope = s.enclosing.foldl qualify package
  outermost : s.outermost = s.enclosing.head?.map (qualify package)

section Declarations

variable {package : String} {s : Surroundings}

theorem outermost_inside (h : s.NestedIn package) (name : String) :
    s.outermost.getD (qualify s.scope name) = qualify package (s.enclosing.head?.getD name) := by
  rw [h.outermost, h.scope]
  cases s.enclosing with
  | nil => rfl
  | cons first rest => rfl

theorem nestedIn_inside (h : s.NestedIn package) (position : Nat) (name : String) :
    (s.inside position name).NestedIn package where
  scope := by
    rw [Surroundings.inside, List.foldl_append, ← h.scope]
    rfl
  outermost := by
    rw [Surroundings.inside, outermost_inside h]
    cases s.enclosing with
    | nil => rfl
    | cons first rest => rfl

-- Both inductions follow the declarations: what a message contains is loaded in its surroundings.
mutual

theorem nestedIn_toMessages {s : Surroundings} (h : s.NestedIn package) (position : Nat) :
    ∀ (d : MessageDecl) {messages : List Message}, d.toMessages s position = .ok messages →
      ∀ m ∈ messages, m.NestedIn package
  | ⟨name, fields, nested, enums, isMapEntry, options⟩, messages, hmessages => by
    rw [MessageDecl.toMessages] at hmessages
    obtain ⟨_, -, hmessages⟩ := exists_of_bind_eq_ok hmessages
    obtain ⟨inner, hinner, hmessages⟩ := exists_of_bind_eq_ok hmessages
    obtain ⟨_, -, hmessages⟩ := exists_of_bind_eq_ok hmessages
    cases hmessages
    intro m hm
    rcases List.mem_cons.1 hm with rfl | hm
    · exact ⟨(nestedIn_inside h position name).scope, outermost_inside h name⟩
    · exact nestedIn_toMessagesList (nestedIn_inside h position name) 0 nested hinner m hm

theorem nestedIn_toMessagesList {s : Surroundings} (h : s.NestedIn package) (position : Nat) :
    ∀ (ds : List MessageDecl) {messages : List Message},
      toMessagesList s position ds = .ok messages → ∀ m ∈ messages, m.NestedIn package
  | [], messages, hmessages => by
    cases hmessages
    intro m hm
    cases hm
  | d :: ds, messages, hmessages => by
    rw [toMessagesList] at hmessages
    obtain ⟨first, hfirst, hmessages⟩ := exists_of_bind_eq_ok hmessages
    obtain ⟨rest, hrest, hmessages⟩ := exists_of_bind_eq_ok hmessages
    cases hmessages
    intro m hm
    rcases List.mem_append.1 hm with hm | hm
    · exact nestedIn_toMessages h position d hfirst m hm
    · exact nestedIn_toMessagesList h (position + 1) ds hrest m hm

end

end Declarations

namespace Pool

variable {pool next : Pool}

theorem nestedIn_declare {file : FileDecl} (h : pool.declare file = .ok next) :
    ∀ m ∈ next.messages, m ∈ pool.messages ∨ m.NestedIn file.package := by
  obtain ⟨messages, hmessages, h⟩ := exists_of_bind_eq_ok h
  cases h
  have hsurroundings :
      ({ file := file.name, scope := file.package } : Surroundings).NestedIn file.package :=
    ⟨rfl, rfl⟩
  intro m hm
  exact (List.mem_append.1 hm).imp_right
    (nestedIn_toMessagesList hsurroundings 0 file.messages hmessages m)

theorem nestedIn_declareAll {files : List FileDecl} (h : (pool.declareAll files).2 = .ok next) :
    ∀ m ∈ next.messages, m ∈ pool.messages ∨ ∃ file ∈ files, m.NestedIn file.package := by
  induction files generalizing pool with
  | nil =>
    cases h
    intro m hm
    exact Or.inl hm
  | cons file rest ih =>
    have hlater : ∀ {m : Message}, (∃ file ∈ rest, m.NestedIn file.package) →
        ∃ other ∈ file :: rest, m.NestedIn other.package := by
      rintro m ⟨other, hother, hm⟩
      exact ⟨other, List.mem_cons_of_mem _ hother, hm⟩
    rw [declareAll] at h
    intro m hm
    split at h
    · exact (ih h m hm).imp_right hlater
    · split at h
      · cases h
      · next declared hdeclared =>
        rcases ih h m hm with hm | hm
        · refine (nestedIn_declare hdeclared m hm).imp_right ?_
          intro hnested
          exact ⟨file, List.mem_cons_self, hnested⟩
        · exact Or.inr (hlater hm)

/-- Every message of a loaded schema is nested in the package of one of the files. -/
theorem nestedIn_load {files : List FileDecl} (h : (load files).2 = .ok pool) :
    ∀ m ∈ pool.messages, ∃ file ∈ files, m.NestedIn file.package := by
  obtain ⟨declared, hdeclared, h⟩ := exists_of_bind_eq_ok h
  obtain ⟨messages, hmessages, rfl⟩ := resolve_eq_ok_iff.1 h
  intro m' hm'
  obtain ⟨m, hm, hresolved⟩ := exists_left_of_forall₂ hmessages hm'
  obtain ⟨fields, -, rfl⟩ := resolveMessage_eq_ok_iff.1 hresolved
  rcases nestedIn_declareAll hdeclared m hm with hnone | ⟨file, hfile, hnested⟩
  · cases hnone
  · exact ⟨file, hfile, hnested.fullName, hnested.outermost⟩

end Pool

end FluentGen.Schema
