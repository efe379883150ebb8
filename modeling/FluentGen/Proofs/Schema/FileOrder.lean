import FluentGen.Proofs.Schema.Resolution

/-!
Loading a schema does not depend on the order of its files. All of them are declared before the
first name is looked up, so a file may refer to one that comes later. What keeps a schema from being
loaded is an option that cannot be read or a name that is not declared, whatever the order.
-/

namespace FluentGen.Schema

/-- The options that files declare can be read. -/
def Readable (files : List FileDecl) : Prop :=
  ∀ file ∈ files, ∀ d ∈ file.declared, d.Readable

/-- What the fields in files refer to by name is declared in one of them. -/
def Resolvable (files : List FileDecl) : Prop :=
  ∀ file ∈ files, ∀ d ∈ file.declared, ∀ f ∈ d.message.fields,
    Refers (messageNames files) (enumNames files) f.kind f.typeName

namespace Pool

section Loading

variable {files : List FileDecl} {pool : Pool}

theorem DeclaredFor.resolvable_iff (h : pool.DeclaredFor files) :
    Resolvable files ↔ ∀ m ∈ pool.messages, ∀ f ∈ m.fields,
      Refers (pool.messages.map (·.fullName)) (pool.enums.map (·.fullName)) f.kind f.typeName := by
  have hall : Resolvable files ↔ ∀ d ∈ files.flatMap (·.declared), ∀ f ∈ d.message.fields,
      Refers (messageNames files) (enumNames files) f.kind f.typeName := by
    simp only [Resolvable, List.mem_flatMap, forall_exists_index, and_imp]
    exact ⟨fun h d file hfile hd => h file hfile d hd, fun h file hfile d hd => h d file hfile hd⟩
  rw [hall, h.names, h.enums]
  refine forall_mem_iff_of_forall₂ h.messages fun d m hm => ?_
  exact forall_mem_iff_of_forall₂ hm.fields fun f g hfield => by rw [hfield.kind, hfield.typeName]

theorem DeclaredFor.target (h : pool.DeclaredFor files) :
    ∀ m ∈ pool.messages, ∀ f ∈ m.fields, f.target = .scalar := by
  intro m hm g hg
  obtain ⟨d, -, hd⟩ := exists_left_of_forall₂ h.messages hm
  obtain ⟨f, -, hf⟩ := exists_left_of_forall₂ hd.fields hg
  exact hf.target

/-- Files of different names can be loaded exactly if their options can be read and all names of
fields are declared. -/
theorem exists_load_iff (hnames : (files.map (·.name)).Nodup) :
    (∃ pool, (load files).2 = .ok pool) ↔ Readable files ∧ Resolvable files := by
  constructor
  · rintro ⟨pool, h⟩
    obtain ⟨declared, hdeclared, hresolve⟩ := exists_of_bind_eq_ok h
    have hfor := declaredFor_of_declareAll hnames hdeclared
    exact ⟨(exists_declareAll_iff hnames).1 ⟨declared, hdeclared⟩,
      hfor.resolvable_iff.2 (exists_resolve_iff.1 ⟨pool, hresolve⟩)⟩
  · rintro ⟨hreadable, hresolvable⟩
    obtain ⟨declared, hdeclared⟩ := (exists_declareAll_iff hnames).2 hreadable
    have hfor := declaredFor_of_declareAll hnames hdeclared
    obtain ⟨pool, hpool⟩ := exists_resolve_iff.2 (hfor.resolvable_iff.1 hresolvable)
    exact ⟨pool, by rw [← hpool]; exact congrArg (· >>= resolve) hdeclared⟩

/-- In a loaded schema all declared messages and enums stand under their names, and all fields are
resolved. -/
theorem names_load (hnames : (files.map (·.name)).Nodup) (h : (load files).2 = .ok pool) :
    pool.messages.map (·.fullName) = messageNames files ∧
      pool.enums.map (·.fullName) = enumNames files ∧
      ∀ m ∈ pool.messages, ∀ f ∈ m.fields, pool.Resolved f := by
  obtain ⟨declared, hdeclared, hresolve⟩ := exists_of_bind_eq_ok h
  have hfor := declaredFor_of_declareAll hnames hdeclared
  obtain ⟨hstations, henums⟩ := map_station_resolve hresolve
  refine ⟨?_, ?_, resolved_of_resolve hfor.target hresolve⟩
  · rw [← hfor.names]
    simpa [Function.comp_def, station] using congrArg (List.map Prod.snd) hstations
  · rw [henums, hfor.enums]

/-- Files in another order are loaded to the same schema in another order, if no name is given
twice. -/
theorem exists_load_of_perm {files' : List FileDecl} (horder : files.Perm files')
    (hnames : (files.map (·.name)).Nodup) (hmessages : (messageNames files).Nodup)
    (henums : (enumNames files).Nodup) (h : (load files).2 = .ok pool) :
    ∃ pool', (load files').2 = .ok pool' ∧ pool.Rearranged pool' := by
  obtain ⟨declared, hdeclared, hresolve⟩ := exists_of_bind_eq_ok h
  have hfor := declaredFor_of_declareAll hnames hdeclared
  obtain ⟨declared', hdeclared', hrearranged⟩ := exists_declareAll_of_perm horder hnames hdeclared
  obtain ⟨pool', hpool', hresult⟩ := hrearranged.resolve (hfor.names ▸ hmessages)
    (hfor.enums ▸ henums) hresolve
  exact ⟨pool', by rw [← hpool']; exact congrArg (· >>= Pool.resolve) hdeclared', hresult⟩

end Loading

/-- Files of different names, whose messages and enums have different full names, are loaded in any
order or in none. They are loaded exactly if their options can be read and what the fields name is
declared in one of them. Each message then stands under its name at the same place in both schemas,
and so do the message around it and what its fields refer to. -/
theorem load_perm {files files' : List FileDecl} (horder : files.Perm files')
    (hnames : (files.map (·.name)).Nodup) (hmessages : (messageNames files).Nodup)
    (henums : (enumNames files).Nodup) :
    ((∃ pool, (load files).2 = .ok pool) ↔ ∃ pool, (load files').2 = .ok pool) ∧
      ((∃ pool, (load files).2 = .ok pool) ↔ Readable files ∧ Resolvable files) ∧
      ∀ pool pool', (load files).2 = .ok pool → (load files').2 = .ok pool' →
        pool.Rearranged pool' ∧ (∀ address, pool.message? address = pool'.message? address) ∧
          pool.messages.map (·.fullName) = messageNames files ∧
          pool.enums.map (·.fullName) = enumNames files ∧
          ∀ m ∈ pool.messages, ∀ f ∈ m.fields, pool.Resolved f ∧ pool'.Resolved f := by
  have hnames' : (files'.map (·.name)).Nodup := (horder.map _).nodup_iff.1 hnames
  have hmessages' : (messageNames files').Nodup := (horder.flatMap_right _).nodup_iff.1 hmessages
  have henums' : (enumNames files').Nodup := (horder.flatMap_right _).nodup_iff.1 henums
  refine ⟨⟨?_, ?_⟩, exists_load_iff hnames, ?_⟩
  · rintro ⟨pool, h⟩
    obtain ⟨pool', h', -⟩ := exists_load_of_perm horder hnames hmessages henums h
    exact ⟨pool', h'⟩
  · rintro ⟨pool', h'⟩
    obtain ⟨pool, h, -⟩ := exists_load_of_perm horder.symm hnames' hmessages' henums' h'
    exact ⟨pool, h⟩
  · intro pool pool' h h'
    obtain ⟨other, hother, hrearranged⟩ := exists_load_of_perm horder hnames hmessages henums h
    cases hother.symm.trans h'
    obtain ⟨hmessageNames, henumNames, hresolved⟩ := names_load hnames h
    obtain ⟨-, -, hresolved'⟩ := names_load hnames' h'
    refine ⟨hrearranged, hrearranged.message? (placed_load h).nodup, hmessageNames, henumNames, ?_⟩
    intro m hm f hf
    exact ⟨hresolved m hm f hf, hresolved' m (hrearranged.messages.mem_iff.1 hm) f hf⟩

/-- Two files that refer to each other, one of them to a message inside of another one. -/
theorem load_perm_mutual :
    let a : FileDecl :=
      { name := "a.proto", package := "p"
        messages := [{ name := "A", fields := [
          { name := "c", kind := .message, typeName := ".p.B.C" }] }] }
    let b : FileDecl :=
      { name := "b.proto", package := "p", enums := [{ name := "E" }]
        messages := [{ name := "B", nested := [{ name := "C", fields := [
          { name := "a", kind := .group, typeName := "p.A" },
          { name := "e", kind := .enum, typeName := "..p.E" }] }] }] }
    messageNames [a, b] = ["p.A", "p.B", "p.B.C"] ∧
      ∃ pool pool', (load [a, b]).2 = .ok pool ∧ (load [b, a]).2 = .ok pool' ∧
        pool.messages.map (·.fullName) = ["p.A", "p.B", "p.B.C"] ∧
        pool'.messages.map (·.fullName) = ["p.B", "p.B.C", "p.A"] ∧
        ∀ address, pool.message? address = pool'.message? address := by
  intro a b
  have hloaded : (load [a, b]).2.toOption.isSome = true := by decide +kernel
  obtain ⟨pool, hpool⟩ : ∃ pool, (load [a, b]).2 = .ok pool := by
    cases h : (load [a, b]).2 with
    | ok pool => exact ⟨pool, rfl⟩
    | error failure =>
      rw [h] at hloaded
      cases hloaded
  obtain ⟨hboth, -, hsame⟩ := load_perm (List.Perm.swap b a []) (by decide +kernel)
    (by decide +kernel) (by decide +kernel)
  obtain ⟨pool', hpool'⟩ := hboth.1 ⟨pool, hpool⟩
  obtain ⟨-, hplaces, hnames, -⟩ := hsame pool pool' hpool hpool'
  have hnames' := (names_load (by decide +kernel) hpool').1
  refine ⟨by decide +kernel, pool, pool', hpool, hpool', ?_, ?_, hplaces⟩
  · rw [hnames]
    decide +kernel
  · rw [hnames']
    decide +kernel

/-- That all names are declared is not enough: a file with an annotation that cannot be read is not
loaded. -/
theorem load_unreadable_annotation :
    let files : List FileDecl :=
      [{ name := "a.proto", messages := [{ name := "A", fields := [
        { name := "x", kind := .int32, annotations := .error .badOptionBytes }] }] }]
    (files.map (·.name)).Nodup ∧ (messageNames files).Nodup ∧ (enumNames files).Nodup ∧
      Resolvable files ∧ (load files).2 = .error .badOptionBytes ∧
      ¬ ((∃ pool, (load files).2 = .ok pool) ↔ Resolvable files) := by
  intro files
  have hfailed : (load files).2 = .error .badOptionBytes := by decide +kernel
  have hresolvable : Resolvable files := by
    simp [Resolvable, files, FileDecl.declared, declaredList, MessageDecl.declared, Refers]
  refine ⟨by decide +kernel, by decide +kernel, by decide +kernel, hresolvable, hfailed, ?_⟩
  intro hiff
  obtain ⟨pool, hpool⟩ := hiff.2 hresolvable
  rw [hfailed] at hpool
  cases hpool

end Pool

end FluentGen.Schema
