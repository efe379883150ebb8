import FluentGen.Proofs.Except
import FluentGen.Schema.Load
import Mathlib.Data.List.Nodup

/-!
Where the messages of a loaded schema stand. No two of them have the same address, and the top
level messages of a file stand at its positions in the order in which the file declares them.
Loading declares a file only once, and looking names up moves nothing.
-/

namespace FluentGen.Schema

/-- Messages declared at positions of their surroundings, each in front of the messages it
contains. -/
structure DeclaredAt (s : Surroundings) (decls : List (MessageDecl × Nat))
    (messages : List Message) : Prop where
  below : ∀ m ∈ messages, ∃ d ∈ decls, ∃ rest, m.address = ⟨s.file, s.path ++ d.2 :: rest⟩
  nodup : (messages.map (·.address)).Nodup
  outer : (messages.filter fun m => m.address.path.length = s.path.length + 1).map
    (fun m => (m.name, m.address)) = decls.map fun d => (d.1.name, ⟨s.file, s.path ++ [d.2]⟩)
  contained : ∀ m ∈ messages, m.container.isNone = (m.address.path.length == 1)

namespace DeclaredAt

variable {s : Surroundings}

theorem nil (s : Surroundings) : DeclaredAt s [] [] where
  below := by intro m hm; cases hm
  nodup := List.nodup_nil
  outer := rfl
  contained := by intro m hm; cases hm

/-- Declarations at different positions do not share an address. -/
theorem append {decls more : List (MessageDecl × Nat)} {messages rest : List Message}
    (hfirst : DeclaredAt s decls messages) (hrest : DeclaredAt s more rest)
    (hapart : ∀ d ∈ decls, ∀ d' ∈ more, d.2 ≠ d'.2) :
    DeclaredAt s (decls ++ more) (messages ++ rest) where
  below := by
    intro m hm
    rcases List.mem_append.1 hm with hm | hm
    · obtain ⟨d, hd, haddress⟩ := hfirst.below m hm
      exact ⟨d, List.mem_append_left more hd, haddress⟩
    · obtain ⟨d, hd, haddress⟩ := hrest.below m hm
      exact ⟨d, List.mem_append_right decls hd, haddress⟩
  nodup := by
    rw [List.map_append]
    refine List.nodup_append.2 ⟨hfirst.nodup, hrest.nodup, ?_⟩
    intro a ha b hb hab
    obtain ⟨m, hm, rfl⟩ := List.mem_map.1 ha
    obtain ⟨m', hm', rfl⟩ := List.mem_map.1 hb
    obtain ⟨d, hd, below, haddress⟩ := hfirst.below m hm
    obtain ⟨d', hd', below', haddress'⟩ := hrest.below m' hm'
    have hpaths : d.2 :: below = d'.2 :: below' := by
      have hsame := haddress.symm.trans (hab.trans haddress')
      exact List.append_cancel_left (Address.mk.inj hsame).2
    exact hapart d hd d' hd' (List.cons.inj hpaths).1
  outer := by
    rw [List.filter_append, List.map_append, hfirst.outer, hrest.outer, List.map_append]
  contained := by
    intro m hm
    rcases List.mem_append.1 hm with hm | hm
    · exact hfirst.contained m hm
    · exact hrest.contained m hm

/-- A message in front of those that it contains. -/
theorem enclose {d : MessageDecl} {position : Nat} {inner : List (MessageDecl × Nat)}
    {nested : List Message} {m : Message}
    (h : DeclaredAt (s.inside position d.name) inner nested) (hname : m.name = d.name)
    (haddress : m.address = ⟨s.file, s.path ++ [position]⟩)
    (hcontainer : m.container = s.container) :
    DeclaredAt s [(d, position)] (m :: nested) := by
  have hdeeper : ∀ x ∈ nested, ∃ n rest, x.address = ⟨s.file, s.path ++ position :: n :: rest⟩ := by
    intro x hx
    obtain ⟨d, -, rest, hx⟩ := h.below x hx
    exact ⟨d.2, rest, by simpa [Surroundings.inside] using hx⟩
  constructor
  · intro x hx
    refine ⟨(d, position), List.mem_singleton_self _, ?_⟩
    rcases List.mem_cons.1 hx with rfl | hx
    · exact ⟨[], haddress⟩
    · obtain ⟨n, rest, hx⟩ := hdeeper x hx
      exact ⟨n :: rest, hx⟩
  · rw [List.map_cons]
    refine List.nodup_cons.2 ⟨?_, h.nodup⟩
    intro hmem
    obtain ⟨x, hx, heq⟩ := List.mem_map.1 hmem
    obtain ⟨n, rest, hx⟩ := hdeeper x hx
    rw [hx, haddress] at heq
    have hpaths := List.append_cancel_left (Address.mk.inj heq).2
    cases hpaths
  · have hnested : nested.filter (fun m => m.address.path.length = s.path.length + 1) = [] := by
      rw [List.filter_eq_nil_iff]
      intro x hx
      obtain ⟨n, rest, hx⟩ := hdeeper x hx
      simp [hx]
    rw [List.filter_cons, hnested]
    simp [haddress, hname]
  · intro x hx
    rcases List.mem_cons.1 hx with rfl | hx
    · rw [haddress, hcontainer, Surroundings.container]
      cases hpath : s.path with
      | nil => simp
      | cons n rest => simp
    · exact h.contained x hx

end DeclaredAt

-- The induction follows the declarations: a message stands in front of the list of those it contains.
mutual

theorem declaredAt_toMessages (s : Surroundings) (position : Nat) :
    ∀ (d : MessageDecl) {messages : List Message}, d.toMessages s position = .ok messages →
      DeclaredAt s [(d, position)] messages
  | ⟨name, fields, nested, enums, isMapEntry, options⟩, messages, h => by
    rw [MessageDecl.toMessages] at h
    obtain ⟨_, -, h⟩ := exists_of_bind_eq_ok h
    obtain ⟨inner, hinner, h⟩ := exists_of_bind_eq_ok h
    obtain ⟨_, -, h⟩ := exists_of_bind_eq_ok h
    cases h
    have hnested := declaredAt_toMessagesList (s.inside position name) 0 nested hinner
    exact hnested.enclose rfl rfl rfl

theorem declaredAt_toMessagesList (s : Surroundings) (position : Nat) :
    ∀ (ds : List MessageDecl) {messages : List Message},
      toMessagesList s position ds = .ok messages → DeclaredAt s (ds.zipIdx position) messages
  | [], messages, h => by
    cases h
    exact .nil s
  | d :: ds, messages, h => by
    rw [toMessagesList] at h
    obtain ⟨first, hfirst, h⟩ := exists_of_bind_eq_ok h
    obtain ⟨rest, hrest, h⟩ := exists_of_bind_eq_ok h
    cases h
    have hhead := declaredAt_toMessages s position d hfirst
    have htail := declaredAt_toMessagesList s (position + 1) ds hrest
    refine hhead.append htail ?_
    intro x hx y hy
    have hafter := List.le_snd_of_mem_zipIdx hy
    rw [List.mem_singleton.1 hx]
    dsimp only
    omega

end

/-- The messages that a file declares at its top level. Of files with one name the first counts. -/
def declaredIn (files : List FileDecl) (name : String) : List MessageDecl :=
  ((files.find? (·.name == name)).map (·.messages)).getD []

namespace Pool

/-- A schema that holds the messages of some files: every message has an address of its own, in one
of the files, and the top level messages of a file stand at its positions in order. -/
structure Placed (pool : Pool) (files : List FileDecl) : Prop where
  loaded : ∀ name, (pool.file? name).isSome = (files.find? (·.name == name)).isSome
  known : ∀ m ∈ pool.messages, (pool.file? m.address.file).isSome
  nodup : (pool.messages.map (·.address)).Nodup
  topLevel : ∀ file, (pool.topLevel file).map (fun m => (m.name, m.address)) =
    (declaredIn files file).zipIdx.map fun d => (d.1.name, ⟨file, [d.2]⟩)

theorem placed_empty : Placed {} [] where
  loaded := fun _ => rfl
  known := by intro m hm; cases hm
  nodup := List.nodup_nil
  topLevel := fun _ => rfl

/-- Two messages of the schema at one address are the same. -/
theorem Placed.eq_of_address_eq {pool : Pool} {files : List FileDecl} (h : pool.Placed files)
    {m m' : Message} (hm : m ∈ pool.messages) (hm' : m' ∈ pool.messages)
    (heq : m.address = m'.address) : m = m' :=
  List.inj_on_of_nodup_map h.nodup hm hm' heq

theorem isSome_file?_append {pool next : Pool} {file : File} {name : String}
    (hfiles : next.files = pool.files ++ [file]) :
    (next.file? name).isSome = ((pool.file? name).isSome || file.name == name) := by
  rw [Bool.eq_iff_iff]
  simp [file?, hfiles, List.find?_append, List.find?_isSome]

/-- The top level messages among those declared in a file. -/
theorem topLevel_of_declaredAt {s : Surroundings} (hpath : s.path = [])
    {decls : List (MessageDecl × Nat)} {messages : List Message} (h : DeclaredAt s decls messages) :
    (messages.filter fun m => m.container.isNone && m.address.file == s.file).map
      (fun m => (m.name, m.address)) = decls.map fun d => (d.1.name, ⟨s.file, [d.2]⟩) := by
  have houter := h.outer
  rw [hpath] at houter
  refine Eq.trans ?_ houter
  congr 1
  apply List.filter_congr
  intro m hm
  obtain ⟨d, -, rest, haddress⟩ := h.below m hm
  rw [h.contained m hm]
  cases rest with
  | nil => simp [haddress, hpath]
  | cons n rest => simp [haddress, hpath]

/-- A file of a name that is there already declares nothing. -/
theorem Placed.skip {pool : Pool} {files : List FileDecl} (h : pool.Placed files) {file : FileDecl}
    (hthere : (pool.file? file.name).isSome) : pool.Placed (files ++ [file]) := by
  have hfind : ∀ name, (files ++ [file]).find? (·.name == name) = files.find? (·.name == name) := by
    intro name
    rw [List.find?_append]
    by_cases hname : file.name = name
    · rw [h.loaded, hname] at hthere
      obtain ⟨first, hfirst⟩ := Option.isSome_iff_exists.1 hthere
      rw [hfirst, Option.some_or]
    · simp [hname]
  constructor
  · intro name
    rw [hfind]
    exact h.loaded name
  · exact h.known
  · exact h.nodup
  · intro name
    rw [h.topLevel, declaredIn, declaredIn, hfind]

/-- A file of a new name adds messages at new addresses. -/
theorem Placed.declare {pool next : Pool} {files : List FileDecl} (h : pool.Placed files)
    {file : FileDecl} (hfresh : pool.file? file.name = none)
    (hnext : pool.declare file = .ok next) :
    next.Placed (files ++ [file]) := by
  obtain ⟨messages, hmessages, hnext⟩ := exists_of_bind_eq_ok hnext
  cases hnext
  have hdeclared := declaredAt_toMessagesList _ 0 file.messages hmessages
  have hnew : ∀ m ∈ messages, m.address.file = file.name := by
    intro m hm
    obtain ⟨n, -, rest, haddress⟩ := hdeclared.below m hm
    rw [haddress]
  have hold : ∀ m ∈ pool.messages, m.address.file ≠ file.name := by
    intro m hm heq
    have hknown := h.known m hm
    rw [heq, hfresh] at hknown
    cases hknown
  have hunknown : files.find? (·.name == file.name) = none := by
    have hnone := h.loaded file.name
    rw [hfresh] at hnone
    simpa using hnone.symm
  constructor
  · intro name
    rw [isSome_file?_append rfl, h.loaded name, List.find?_append, Bool.eq_iff_iff]
    simp [List.find?_isSome]
  · intro m hm
    rw [isSome_file?_append rfl]
    rcases List.mem_append.1 hm with hm | hm
    · simp [h.known m hm]
    · simp [hnew m hm]
  · rw [List.map_append]
    refine List.nodup_append.2 ⟨h.nodup, hdeclared.nodup, ?_⟩
    intro a ha b hb hab
    obtain ⟨m, hm, rfl⟩ := List.mem_map.1 ha
    obtain ⟨m', hm', rfl⟩ := List.mem_map.1 hb
    apply hold m hm
    rw [hab, hnew m' hm']
  · intro sought
    simp only [Pool.topLevel, List.filter_append, List.map_append]
    by_cases hsought : sought = file.name
    · subst hsought
      have hnone : (pool.messages.filter fun m =>
          m.container.isNone && m.address.file == file.name) = [] := by
        rw [List.filter_eq_nil_iff]
        intro m hm
        simp [hold m hm]
      have hdecls : declaredIn (files ++ [file]) file.name = file.messages := by
        simp [declaredIn, List.find?_append, hunknown]
      rw [hnone, hdecls]
      exact topLevel_of_declaredAt rfl hdeclared
    · have hnone : (messages.filter fun m =>
          m.container.isNone && m.address.file == sought) = [] := by
        rw [List.filter_eq_nil_iff]
        intro m hm
        simp [hnew m hm, Ne.symm hsought]
      have hdecls : declaredIn (files ++ [file]) sought = declaredIn files sought := by
        simp [declaredIn, List.find?_append, Ne.symm hsought]
      rw [hnone, hdecls, List.map_nil, List.append_nil]
      exact h.topLevel sought

theorem Placed.declareAll {files done : List FileDecl} {pool next : Pool} (h : pool.Placed done)
    (hnext : (pool.declareAll files).2 = .ok next) : next.Placed (done ++ files) := by
  induction files generalizing pool done with
  | nil =>
    cases hnext
    rwa [List.append_nil]
  | cons file rest ih =>
    rw [Pool.declareAll] at hnext
    rw [List.append_cons]
    split at hnext
    · next hthere => exact ih (h.skip hthere) hnext
    · next hfresh =>
      split at hnext
      · cases hnext
      · next declared hdeclared =>
        have hfresh : pool.file? file.name = none := by simpa using hfresh
        exact ih (h.declare hfresh hdeclared) hnext

/-- What a message is called, where it stands, and in which one. -/
def outline (m : Message) : (String × Address) × Option Address :=
  ((m.name, m.address), m.container)

theorem map_topLevel (pool : Pool) (file : String) :
    (pool.topLevel file).map (fun m => (m.name, m.address)) =
      ((pool.messages.map outline).filter fun o => o.2.isNone && o.1.2.file == file).map
        Prod.fst := by
  rw [List.filter_map, List.map_map]
  rfl

/-- Looking names up leaves all messages where they are. -/
theorem map_outline_resolve {pool next : Pool} (h : pool.resolve = .ok next) :
    next.messages.map outline = pool.messages.map outline ∧ next.files = pool.files := by
  have hmap : ∀ {old new : List Message},
      List.Forall₂ (fun m m' => pool.resolveMessage m = .ok m') old new →
        new.map outline = old.map outline := by
    intro old new hforall
    induction hforall with
    | nil => rfl
    | cons hfirst _ ih =>
      obtain ⟨_, -, hfirst⟩ := exists_of_bind_eq_ok hfirst
      cases hfirst
      rw [List.map_cons, List.map_cons, ih]
      rfl
  obtain ⟨_, -, h⟩ := exists_of_bind_eq_ok h
  obtain ⟨messages, hmessages, h⟩ := exists_of_bind_eq_ok h
  cases h
  exact ⟨hmap (forall₂_of_mapM_eq_ok hmessages), rfl⟩

theorem Placed.resolve {pool next : Pool} {files : List FileDecl} (h : pool.Placed files)
    (hnext : pool.resolve = .ok next) : next.Placed files := by
  obtain ⟨houtline, hfiles⟩ := map_outline_resolve hnext
  have haddresses : next.messages.map (·.address) = pool.messages.map (·.address) := by
    have := congrArg (List.map fun o => o.1.2) houtline
    simpa [List.map_map, Function.comp_def, outline] using this
  have hfile : ∀ name, next.file? name = pool.file? name := by
    intro name
    rw [file?, hfiles, file?]
  constructor
  · intro name
    rw [hfile]
    exact h.loaded name
  · intro m hm
    have hmem : m.address ∈ pool.messages.map (·.address) :=
      haddresses ▸ List.mem_map_of_mem hm
    obtain ⟨m', hm', heq⟩ := List.mem_map.1 hmem
    rw [hfile, ← heq]
    exact h.known m' hm'
  · rw [haddresses]
    exact h.nodup
  · intro file
    rw [map_topLevel, houtline, ← map_topLevel]
    exact h.topLevel file

/-- In a loaded schema every message has an address of its own. -/
theorem placed_load {files : List FileDecl} {pool : Pool} (h : (load files).2 = .ok pool) :
    pool.Placed files := by
  obtain ⟨declared, hdeclared, hresolve⟩ := exists_of_bind_eq_ok h
  exact (placed_empty.declareAll hdeclared).resolve hresolve

end Pool

end FluentGen.Schema
