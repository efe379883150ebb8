import FluentGen.Proofs.Except
import FluentGen.Schema.Load

/-!
What schema files declare, and what is loaded for it. A file declares its messages at any depth, and
a message is declared under the name of its scope and its own. Where all options can be read, one
message is loaded for each declaration, under its name and with its fields and enums.
-/

namespace FluentGen.Schema

/-- A field that is loaded for a declaration in a scope, and refers to nothing yet. -/
structure FieldDecl.LoadedAs (scope : String) (f : FieldDecl) (g : Field) : Prop where
  name : g.fullName = qualify scope f.name
  kind : g.kind = f.kind
  typeName : g.typeName = f.typeName
  target : g.target = .scalar

/-- A declared message and the full name of the scope it stands in. -/
structure Declared where
  scope : String
  message : MessageDecl

namespace Declared

/-- The full name that a message is declared under. -/
def fullName (d : Declared) : String :=
  qualify d.scope d.message.name

/-- The full names of the enums that a message declares. -/
def enumNames (d : Declared) : List String :=
  d.message.enums.map fun e => qualify d.fullName e.name

/-- The options of a message and the annotations of its fields can be read. -/
structure Readable (d : Declared) : Prop where
  options : ∃ options, d.message.options = .ok options
  annotations : ∀ f ∈ d.message.fields, ∃ annotations, f.annotations = .ok annotations

/-- A message that is loaded for a declaration: its name, the names of its enums, and what its
fields refer to by name. -/
structure LoadedAs (d : Declared) (m : Message) : Prop where
  name : m.fullName = d.fullName
  enums : m.enums.map (·.fullName) = d.enumNames
  fields : List.Forall₂ (FieldDecl.LoadedAs d.fullName) d.message.fields m.fields

end Declared

mutual

/-- The messages that a declaration in a scope declares, in front of those that it contains. -/
def MessageDecl.declared (scope : String) : MessageDecl → List Declared
  | ⟨name, fields, nested, enums, isMapEntry, options⟩ =>
    ⟨scope, ⟨name, fields, nested, enums, isMapEntry, options⟩⟩
      :: declaredList (qualify scope name) nested

/-- The messages that declarations in a scope declare. -/
def declaredList (scope : String) : List MessageDecl → List Declared
  | [] => []
  | m :: rest => m.declared scope ++ declaredList scope rest

end

namespace FileDecl

/-- The messages that a file declares, at any depth. -/
def declared (file : FileDecl) : List Declared :=
  declaredList file.package file.messages

/-- The full names of the enums that a file declares, at any depth. -/
def enumNames (file : FileDecl) : List String :=
  (file.enums.map fun e => qualify file.package e.name) ++ file.declared.flatMap (·.enumNames)

end FileDecl

section Fields

variable {container : Address} {scope : String}

theorem loadedAs_of_toField {f : FieldDecl} {g : Field} (h : f.toField container scope = .ok g) :
    (∃ annotations, f.annotations = .ok annotations) ∧ f.LoadedAs scope g := by
  obtain ⟨annotations, hannotations, hmade⟩ := exists_of_bind_eq_ok h
  cases hmade
  exact ⟨⟨annotations, hannotations⟩, rfl, rfl, rfl, rfl⟩

theorem exists_toField {f : FieldDecl} (h : ∃ annotations, f.annotations = .ok annotations) :
    ∃ g, f.toField container scope = .ok g := by
  obtain ⟨annotations, h⟩ := h
  unfold FieldDecl.toField
  rw [h]
  exact ⟨_, rfl⟩

theorem forall₂_loadedAs {fields : List FieldDecl} {loaded : List Field}
    (h : fields.mapM (·.toField container scope) = .ok loaded) :
    (∀ f ∈ fields, ∃ annotations, f.annotations = .ok annotations) ∧
      List.Forall₂ (FieldDecl.LoadedAs scope) fields loaded := by
  constructor
  · intro f hf
    obtain ⟨g, hg⟩ := exists_mapM_eq_ok_iff.1 ⟨loaded, h⟩ f hf
    exact (loadedAs_of_toField hg).1
  · exact (mapM_eq_ok_iff.1 h).imp fun _ _ hg => (loadedAs_of_toField hg).2

end Fields

-- Both inductions follow the declarations: what a message contains is declared in its own scope and
-- loaded behind it.
mutual

theorem loadedAs_toMessages (s : Surroundings) (position : Nat) :
    ∀ (d : MessageDecl) {messages : List Message}, d.toMessages s position = .ok messages →
      (∀ x ∈ d.declared s.scope, x.Readable) ∧
        List.Forall₂ Declared.LoadedAs (d.declared s.scope) messages
  | ⟨name, fields, nested, enums, isMapEntry, options⟩, messages, h => by
    rw [MessageDecl.toMessages] at h
    obtain ⟨readOptions, hoptions, h⟩ := exists_of_bind_eq_ok h
    obtain ⟨inner, hinner, h⟩ := exists_of_bind_eq_ok h
    obtain ⟨loaded, hloaded, h⟩ := exists_of_bind_eq_ok h
    cases h
    obtain ⟨hreadable, hmatch⟩ := loadedAs_toMessagesList (s.inside position name) 0 nested hinner
    obtain ⟨hannotations, hfields⟩ := forall₂_loadedAs hloaded
    rw [MessageDecl.declared]
    constructor
    · intro x hx
      rcases List.mem_cons.1 hx with rfl | hx
      · exact ⟨⟨readOptions, hoptions⟩, hannotations⟩
      · exact hreadable x hx
    · refine .cons ?_ hmatch
      exact ⟨rfl, by simp [Declared.enumNames, Declared.fullName, Surroundings.enumType,
        Surroundings.inside], hfields⟩

theorem loadedAs_toMessagesList (s : Surroundings) (position : Nat) :
    ∀ (ds : List MessageDecl) {messages : List Message},
      toMessagesList s position ds = .ok messages →
      (∀ x ∈ declaredList s.scope ds, x.Readable) ∧
        List.Forall₂ Declared.LoadedAs (declaredList s.scope ds) messages
  | [], messages, h => by
    cases h
    rw [declaredList]
    exact ⟨by simp, .nil⟩
  | d :: ds, messages, h => by
    rw [toMessagesList] at h
    obtain ⟨first, hfirst, h⟩ := exists_of_bind_eq_ok h
    obtain ⟨rest, hrest, h⟩ := exists_of_bind_eq_ok h
    cases h
    obtain ⟨hreadable, hmatch⟩ := loadedAs_toMessages s position d hfirst
    obtain ⟨hreadableRest, hmatchRest⟩ := loadedAs_toMessagesList s (position + 1) ds hrest
    rw [declaredList, List.forall_mem_append]
    exact ⟨⟨hreadable, hreadableRest⟩, List.rel_append hmatch hmatchRest⟩

end

mutual

theorem exists_toMessages (s : Surroundings) (position : Nat) :
    ∀ (d : MessageDecl), (∀ x ∈ d.declared s.scope, x.Readable) →
      ∃ messages, d.toMessages s position = .ok messages
  | ⟨name, fields, nested, enums, isMapEntry, options⟩, h => by
    rw [MessageDecl.declared, List.forall_mem_cons] at h
    obtain ⟨hself, hnested⟩ := h
    obtain ⟨inner, hinner⟩ := exists_toMessagesList (s.inside position name) 0 nested hnested
    obtain ⟨readOptions, hoptions⟩ := hself.options
    obtain ⟨loaded, hloaded⟩ : ∃ loaded, fields.mapM
        (·.toField ⟨(s.inside position name).file, (s.inside position name).path⟩
          (s.inside position name).scope) = .ok loaded :=
      exists_mapM_eq_ok_iff.2 fun f hf => exists_toField (hself.annotations f hf)
    dsimp only at hoptions
    rw [MessageDecl.toMessages, hoptions, hinner, hloaded]
    exact ⟨_, rfl⟩

theorem exists_toMessagesList (s : Surroundings) (position : Nat) :
    ∀ (ds : List MessageDecl), (∀ x ∈ declaredList s.scope ds, x.Readable) →
      ∃ messages, toMessagesList s position ds = .ok messages
  | [], _ => ⟨[], by rw [toMessagesList]⟩
  | d :: ds, h => by
    rw [declaredList, List.forall_mem_append] at h
    obtain ⟨first, hfirst⟩ := exists_toMessages s position d h.1
    obtain ⟨rest, hrest⟩ := exists_toMessagesList s (position + 1) ds h.2
    rw [toMessagesList, hfirst, hrest]
    exact ⟨_, rfl⟩

end

end FluentGen.Schema
