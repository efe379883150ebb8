import FluentGen.Proofs.Schema.Addresses
import FluentGen.Proofs.Schema.Declared
import Mathlib.Data.List.Perm.Basic

/-!
A schema of several files, before its names are looked up, is joined from the schemas of the single
files. So files in another order give the same messages and enums in another order.
-/

namespace FluentGen.Schema

/-- The full names of the messages that files declare. -/
def messageNames (files : List FileDecl) : List String :=
  files.flatMap fun file => file.declared.map (·.fullName)

/-- The full names of the enums that files declare. -/
def enumNames (files : List FileDecl) : List String :=
  files.flatMap (·.enumNames)

namespace Pool

/-- Two schemas with the same files, messages and enums, whatever their order. -/
structure Rearranged (p q : Pool) : Prop where
  files : p.files.Perm q.files
  messages : p.messages.Perm q.messages
  enums : p.enums.Perm q.enums

/-- A schema with another one behind it. -/
def append (p q : Pool) : Pool where
  files := p.files ++ q.files
  messages := p.messages ++ q.messages
  enums := p.enums ++ q.enums

section Joined

variable {pool next : Pool} {files : List FileDecl}

/-- The schemas of files, one for each. -/
def Parts (files : List FileDecl) (parts : List Pool) : Prop :=
  List.Forall₂ (fun file part => ({} : Pool).declare file = .ok part) files parts

theorem declare_eq_ok_iff {file : FileDecl} :
    pool.declare file = .ok next ↔
      ∃ part, ({} : Pool).declare file = .ok part ∧ next = pool.append part := by
  constructor
  · intro h
    obtain ⟨messages, hmessages, h⟩ := exists_of_bind_eq_ok h
    cases h
    refine ⟨_, by rw [declare, hmessages]; rfl, ?_⟩
    simp [append, List.append_assoc]
  · rintro ⟨part, hpart, rfl⟩
    obtain ⟨messages, hmessages, hpart⟩ := exists_of_bind_eq_ok hpart
    cases hpart
    rw [declare, hmessages]
    simp [append, List.append_assoc]

theorem files_of_declare {file : FileDecl} {part : Pool}
    (h : ({} : Pool).declare file = .ok part) :
    ∃ f : File, part.files = [f] ∧ f.name = file.name := by
  obtain ⟨_, -, h⟩ := exists_of_bind_eq_ok h
  cases h
  exact ⟨_, rfl, rfl⟩

/-- Files of different names that are new to a schema are declared apart and joined to it. -/
theorem declareAll_eq_ok_iff (hnames : (files.map (·.name)).Nodup)
    (hfresh : ∀ file ∈ files, pool.file? file.name = none) :
    (pool.declareAll files).2 = .ok next ↔
      ∃ parts, Parts files parts ∧ next = parts.foldl append pool := by
  induction files generalizing pool with
  | nil =>
    constructor
    · intro h
      cases h
      exact ⟨[], .nil, rfl⟩
    · rintro ⟨parts, hparts, rfl⟩
      cases hparts
      rfl
  | cons file rest ih =>
    obtain ⟨hfile, hrestNames⟩ := List.nodup_cons.1 hnames
    obtain ⟨hnew, hrestFresh⟩ := List.forall_mem_cons.1 hfresh
    have hstill : ∀ {part}, ({} : Pool).declare file = .ok part →
        ∀ other ∈ rest, (pool.append part).file? other.name = none := by
      intro part hpart other hother
      obtain ⟨f, hf, hname⟩ := files_of_declare hpart
      have hne : f.name ≠ other.name := by
        intro heq
        exact hfile (List.mem_map.2 ⟨other, hother, (hname.symm.trans heq).symm⟩)
      have hfiles : (pool.append part).files = pool.files ++ [f] := by rw [append, hf]
      have hsome : ((pool.append part).file? other.name).isSome = _ := isSome_file?_append hfiles
      rw [hrestFresh other hother, beq_false_of_ne hne] at hsome
      exact Option.isNone_iff_eq_none.1 (Option.isSome_eq_false_iff.1 hsome)
    have hnotThere : ¬ (pool.file? file.name).isSome = true := by simp [hnew]
    rw [declareAll, if_neg hnotThere]
    constructor
    · intro h
      split at h
      · cases h
      · next declared hdeclared =>
        obtain ⟨part, hpart, rfl⟩ := declare_eq_ok_iff.1 hdeclared
        obtain ⟨parts, hparts, rfl⟩ := (ih hrestNames (hstill hpart)).1 h
        exact ⟨part :: parts, .cons hpart hparts, rfl⟩
    · rintro ⟨parts, hparts, rfl⟩
      cases hparts with
      | cons hpart hparts =>
        rw [declare_eq_ok_iff.2 ⟨_, hpart, rfl⟩]
        exact (ih hrestNames (hstill hpart)).2 ⟨_, hparts, rfl⟩

theorem foldl_append (parts : List Pool) (pool : Pool) :
    parts.foldl append pool =
      { files := pool.files ++ parts.flatMap (·.files)
        messages := pool.messages ++ parts.flatMap (·.messages)
        enums := pool.enums ++ parts.flatMap (·.enums) } := by
  induction parts generalizing pool with
  | nil => simp
  | cons part rest ih =>
    rw [List.foldl_cons, ih]
    simp [append, List.append_assoc]

/-- Files of different names, declared in another order, give the same schema in another order. -/
theorem exists_declareAll_of_perm {files' : List FileDecl} (hperm : files.Perm files')
    (hnames : (files.map (·.name)).Nodup) (h : (({} : Pool).declareAll files).2 = .ok pool) :
    ∃ pool', (({} : Pool).declareAll files').2 = .ok pool' ∧ pool.Rearranged pool' := by
  obtain ⟨parts, hparts, rfl⟩ := (declareAll_eq_ok_iff hnames fun _ _ => rfl).1 h
  obtain ⟨parts', hparts', horder⟩ := List.perm_comp_forall₂ hperm.symm hparts
  have hnames' : (files'.map (·.name)).Nodup := (hperm.map _).nodup_iff.1 hnames
  refine ⟨_, (declareAll_eq_ok_iff hnames' fun _ _ => rfl).2 ⟨parts', hparts', rfl⟩, ?_⟩
  rw [foldl_append, foldl_append]
  exact ⟨(horder.symm.flatMap_right _).append_left _, (horder.symm.flatMap_right _).append_left _,
    (horder.symm.flatMap_right _).append_left _⟩

end Joined

section Declarations

variable {file : FileDecl} {files : List FileDecl} {part pool : Pool}

/-- What is declared for files: their messages and enums, under the names that they have there. -/
structure DeclaredFor (pool : Pool) (files : List FileDecl) : Prop where
  messages : List.Forall₂ Declared.LoadedAs (files.flatMap (·.declared)) pool.messages
  enums : pool.enums.map (·.fullName) = enumNames files

theorem loadedAs_of_declare (h : ({} : Pool).declare file = .ok part) :
    (∀ d ∈ file.declared, d.Readable) ∧
      List.Forall₂ Declared.LoadedAs file.declared part.messages ∧
      part.enums.map (·.fullName) = file.enumNames := by
  obtain ⟨messages, hmessages, h⟩ := exists_of_bind_eq_ok h
  cases h
  obtain ⟨hreadable, hmatch⟩ := loadedAs_toMessagesList _ 0 file.messages hmessages
  refine ⟨hreadable, hmatch, ?_⟩
  have henums : file.declared.map (·.enumNames) =
      messages.map fun m => m.enums.map (·.fullName) :=
    map_eq_map_of_forall₂ hmatch fun _ _ hd => hd.enums.symm
  have hall : file.declared.flatMap (·.enumNames) =
      messages.flatMap fun m => m.enums.map (·.fullName) := by
    rw [List.flatMap_def, henums, ← List.flatMap_def]
  rw [FileDecl.enumNames, hall]
  simp [List.map_flatMap, Surroundings.enumType]

theorem exists_declare (h : ∀ d ∈ file.declared, d.Readable) :
    ∃ part, ({} : Pool).declare file = .ok part := by
  obtain ⟨messages, hmessages⟩ :=
    exists_toMessagesList { file := file.name, scope := file.package } 0 file.messages h
  rw [declare, hmessages]
  exact ⟨_, rfl⟩

/-- Files of different names can be declared exactly if their options can be read. -/
theorem exists_declareAll_iff (hnames : (files.map (·.name)).Nodup) :
    (∃ pool, (({} : Pool).declareAll files).2 = .ok pool) ↔
      ∀ file ∈ files, ∀ d ∈ file.declared, d.Readable := by
  constructor
  · rintro ⟨pool, hpool⟩ file hfile
    obtain ⟨parts, hparts, -⟩ := (declareAll_eq_ok_iff hnames fun _ _ => rfl).1 hpool
    obtain ⟨part, hpart⟩ := exists_mapM_eq_ok_iff.1 ⟨parts, mapM_eq_ok_iff.2 hparts⟩ file hfile
    exact (loadedAs_of_declare hpart).1
  · intro h
    obtain ⟨parts, hparts⟩ := exists_mapM_eq_ok_iff.2 fun file hfile => exists_declare (h file hfile)
    exact ⟨_, (declareAll_eq_ok_iff hnames fun _ _ => rfl).2 ⟨parts, mapM_eq_ok_iff.1 hparts, rfl⟩⟩

theorem declaredFor_of_declareAll (hnames : (files.map (·.name)).Nodup)
    (h : (({} : Pool).declareAll files).2 = .ok pool) : pool.DeclaredFor files := by
  obtain ⟨parts, hparts, rfl⟩ := (declareAll_eq_ok_iff hnames fun _ _ => rfl).1 h
  rw [foldl_append]
  constructor
  · exact List.rel_flatMap hparts fun _ _ hpart => (loadedAs_of_declare hpart).2.1
  · have henums : files.map (·.enumNames) = parts.map fun part => part.enums.map (·.fullName) :=
      map_eq_map_of_forall₂ hparts fun _ _ hpart => (loadedAs_of_declare hpart).2.2.symm
    have hall : enumNames files = parts.flatMap fun part => part.enums.map (·.fullName) := by
      rw [enumNames, List.flatMap_def, henums, ← List.flatMap_def]
    rw [hall]
    exact List.map_flatMap

theorem DeclaredFor.names (h : pool.DeclaredFor files) :
    pool.messages.map (·.fullName) = messageNames files := by
  rw [messageNames, ← List.map_flatMap]
  exact (map_eq_map_of_forall₂ h.messages fun _ _ hd => hd.name.symm).symm

end Declarations

end Pool

end FluentGen.Schema
