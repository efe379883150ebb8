import FluentGen.Proofs.Schema.Nesting

/-!
The paths along which schema files declare messages. A path leads from a message at the top level of
a file through the messages inside of one another. For each path of a file one message is loaded, in
the order of the files and of the paths. Of files with one name only the first is loaded.
-/

namespace FluentGen.Schema

/-- The files that are loaded, which are the first of each name. -/
def firstOfEachName : List FileDecl → List FileDecl
  | [] => []
  | file :: rest => file :: (firstOfEachName rest).filter (·.name ≠ file.name)

/-- A path into declarations with their positions: the positions and the names of the messages that
it leads through, the outermost first. -/
inductive DeclaredAlong : List (MessageDecl × Nat) → List Nat → List String → Prop
  | here {decls : List (MessageDecl × Nat)} {d : MessageDecl} {position : Nat}
      (hd : (d, position) ∈ decls) : DeclaredAlong decls [position] [d.name]
  | inside {decls : List (MessageDecl × Nat)} {d : MessageDecl} {position : Nat} {path : List Nat}
      {names : List String} (hd : (d, position) ∈ decls)
      (hinner : DeclaredAlong d.nested.zipIdx path names) :
      DeclaredAlong decls (position :: path) (d.name :: names)

/-- A file declares a message at a path. -/
def FileDecl.DeclaresAt (file : FileDecl) (path : List Nat) (names : List String) : Prop :=
  DeclaredAlong file.messages.zipIdx path names

/-- The message at one address is loaded before that at another: with a file in front, or in the
same file and further in front, where a message stands in front of what it contains. -/
def LoadedBefore (files : List FileDecl) (first second : Address) : Prop :=
  [first.file, second.file].Sublist (files.map (·.name)) ∨
    first.file = second.file ∧ first.path < second.path

/-- The address of the message around an address. -/
def Address.outer? (address : Address) : Option Address :=
  if address.path.dropLast.isEmpty then none else some ⟨address.file, address.path.dropLast⟩

section FilesOfOneName

variable {pool next : Pool}

theorem mem_of_mem_firstOfEachName {files : List FileDecl} {file : FileDecl}
    (h : file ∈ firstOfEachName files) : file ∈ files := by
  induction files with
  | nil => cases h
  | cons first rest ih =>
    rcases List.mem_cons.1 h with rfl | h
    · exact List.mem_cons_self
    · exact List.mem_cons_of_mem _ (ih (List.mem_filter.1 h).1)

theorem nodup_firstOfEachName (files : List FileDecl) :
    ((firstOfEachName files).map (·.name)).Nodup := by
  induction files with
  | nil => exact List.nodup_nil
  | cons first rest ih =>
    rw [firstOfEachName, List.map_cons]
    refine List.nodup_cons.2 ⟨?_, ih.sublist (List.filter_sublist.map _)⟩
    intro hmem
    obtain ⟨other, hother, hname⟩ := List.mem_map.1 hmem
    have hne := (List.mem_filter.1 hother).2
    exact of_decide_eq_true hne hname

namespace Pool

theorem isSome_file?_declare {file : FileDecl} (h : pool.declare file = .ok next) (name : String) :
    (next.file? name).isSome = ((pool.file? name).isSome || file.name == name) := by
  obtain ⟨part, hpart, rfl⟩ := declare_eq_ok_iff.1 h
  obtain ⟨f, hf, hname⟩ := files_of_declare hpart
  have hfiles : (pool.append part).files = pool.files ++ [f] := by rw [append, hf]
  rw [isSome_file?_append hfiles, hname]

/-- Files whose names are there already can be left out. -/
theorem declareAll_filter {files : List FileDecl} {keep : FileDecl → Bool}
    (h : ∀ file, keep file = false → (pool.file? file.name).isSome) :
    (pool.declareAll (files.filter keep)).2 = (pool.declareAll files).2 := by
  induction files generalizing pool with
  | nil => rfl
  | cons file rest ih =>
    cases hkeep : keep file with
    | false =>
      rw [List.filter_cons_of_neg (by simp [hkeep]), ih h, declareAll, if_pos (h file hkeep)]
    | true =>
      rw [List.filter_cons_of_pos hkeep, declareAll, declareAll]
      split
      · exact ih h
      · split
        · rfl
        · next next hnext =>
          apply ih
          intro other hother
          rw [isSome_file?_declare hnext, h other hother, Bool.true_or]

/-- A file of a name that was there before adds nothing. -/
theorem declareAll_firstOfEachName (files : List FileDecl) :
    (pool.declareAll (firstOfEachName files)).2 = (pool.declareAll files).2 := by
  induction files generalizing pool with
  | nil => rfl
  | cons file rest ih =>
    have hlater : ∀ {next : Pool}, (next.file? file.name).isSome →
        (next.declareAll ((firstOfEachName rest).filter (·.name ≠ file.name))).2 =
          (next.declareAll rest).2 := by
      intro next hthere
      rw [declareAll_filter ?_, ih]
      intro other hother
      have hname : other.name = file.name := by simpa using hother
      rwa [hname]
    rw [firstOfEachName, declareAll, declareAll]
    split
    · next hthere => exact hlater hthere
    · split
      · rfl
      · next next hnext =>
        apply hlater
        rw [isSome_file?_declare hnext, beq_self_eq_true, Bool.or_true]

theorem load_firstOfEachName (files : List FileDecl) :
    (load (firstOfEachName files)).2 = (load files).2 :=
  congrArg (· >>= resolve) (declareAll_firstOfEachName files)

end Pool

end FilesOfOneName

section Paths

variable {decls more : List (MessageDecl × Nat)} {path : List Nat} {names : List String}

theorem DeclaredAlong.mono (h : DeclaredAlong decls path names) (hsub : decls ⊆ more) :
    DeclaredAlong more path names := by
  cases h with
  | here hd => exact .here (hsub hd)
  | inside hd hinner => exact .inside (hsub hd) hinner

theorem declaredAlong_append_iff :
    DeclaredAlong (decls ++ more) path names ↔
      DeclaredAlong decls path names ∨ DeclaredAlong more path names := by
  constructor
  · intro h
    cases h with
    | here hd => exact (List.mem_append.1 hd).imp .here .here
    | inside hd hinner =>
      exact (List.mem_append.1 hd).imp (.inside · hinner) (.inside · hinner)
  · rintro (h | h)
    · exact h.mono (List.subset_append_left decls more)
    · exact h.mono (List.subset_append_right decls more)

theorem DeclaredAlong.exists_cons (h : DeclaredAlong decls path names) :
    ∃ d ∈ decls, ∃ rest, path = d.2 :: rest := by
  cases h with
  | here hd => exact ⟨_, hd, [], rfl⟩
  | inside hd hinner => exact ⟨_, hd, _, rfl⟩

theorem DeclaredAlong.names_ne_nil (h : DeclaredAlong decls path names) : names ≠ [] := by
  cases h with
  | here hd => exact List.cons_ne_nil _ _
  | inside hd hinner => exact List.cons_ne_nil _ _

/-- The path of a message leads through the message around it. -/
theorem DeclaredAlong.dropLast (h : DeclaredAlong decls path names) (hpath : path.dropLast ≠ []) :
    DeclaredAlong decls path.dropLast names.dropLast := by
  induction h with
  | here hd => exact absurd rfl hpath
  | inside hd hinner ih =>
    cases hinner with
    | here hinner => exact .here hd
    | inside hinner hdeeper =>
      obtain ⟨_, _, _, rfl⟩ := hdeeper.exists_cons
      obtain ⟨_, _, rfl⟩ := List.exists_cons_of_ne_nil hdeeper.names_ne_nil
      exact .inside hd (ih (List.cons_ne_nil _ _))

theorem DeclaredAlong.names_dropLast_eq_nil (h : DeclaredAlong decls path names)
    (hpath : path.dropLast = []) : names.dropLast = [] := by
  cases h with
  | here hd => rfl
  | inside hd hinner =>
    obtain ⟨_, _, _, rfl⟩ := hinner.exists_cons
    cases hpath

theorem declared_eq (d : MessageDecl) (scope : String) :
    d.declared scope = ⟨scope, d⟩ :: declaredList (qualify scope d.name) d.nested := by
  cases d
  rfl

theorem declared_subset_declaredList {d : MessageDecl} {ds : List MessageDecl} (hd : d ∈ ds)
    (scope : String) : d.declared scope ⊆ declaredList scope ds := by
  induction ds with
  | nil => cases hd
  | cons first rest ih =>
    rw [declaredList]
    rcases List.mem_cons.1 hd with rfl | hd
    · exact List.subset_append_left _ _
    · exact List.Subset.trans (ih hd) (List.subset_append_right _ _)

/-- The names along a path are names of declared messages. -/
theorem DeclaredAlong.exists_declared (h : DeclaredAlong decls path names) {ds : List MessageDecl}
    (hdecls : ∀ d ∈ decls, d.1 ∈ ds) (scope : String) :
    ∀ n ∈ names, ∃ x ∈ declaredList scope ds, x.message.name = n := by
  induction h generalizing ds scope with
  | @here decls d position hd =>
    intro n hn
    have hself : (⟨scope, d⟩ : Declared) ∈ d.declared scope := by simp [declared_eq]
    rw [List.mem_singleton.1 hn]
    exact ⟨_, declared_subset_declaredList (hdecls _ hd) scope hself, rfl⟩
  | @inside decls d position path names hd hinner ih =>
    intro n hn
    have hdeclared := declared_subset_declaredList (hdecls _ hd) scope
    rcases List.mem_cons.1 hn with rfl | hn
    · exact ⟨⟨scope, d⟩, hdeclared (by simp [declared_eq]), rfl⟩
    · have hnested : ∀ x ∈ d.nested.zipIdx, x.1 ∈ d.nested := fun x => List.fst_mem_of_mem_zipIdx
      obtain ⟨x, hx, hname⟩ := ih hnested (qualify scope d.name) n hn
      refine ⟨x, hdeclared ?_, hname⟩
      rw [declared_eq]
      exact List.mem_cons_of_mem _ hx

end Paths

/-- A message at a path below its surroundings. -/
structure Message.At (s : Surroundings) (path : List Nat) (names : List String) (m : Message) :
    Prop where
  address : m.address = ⟨s.file, s.path ++ path⟩
  nesting : m.nesting = s.enclosing ++ names
  fullName : m.fullName = names.foldl qualify s.scope
  container : m.container = m.address.outer?

/-- The messages that are loaded for declarations, one at each path, and in the order of the
paths. -/
structure LoadedAlong (s : Surroundings) (decls : List (MessageDecl × Nat))
    (messages : List Message) : Prop where
  loaded : ∀ path names, DeclaredAlong decls path names → ∃ m ∈ messages, m.At s path names
  declared : ∀ m ∈ messages, ∃ path names, DeclaredAlong decls path names ∧ m.At s path names
  ordered : messages.Pairwise fun m m' => m.address.path < m'.address.path

theorem Message.At.outside {s : Surroundings} {position : Nat} {name : String} {path : List Nat}
    {names : List String} {m : Message} (h : m.At (s.inside position name) path names) :
    m.At s (position :: path) (name :: names) where
  address := by
    rw [h.address, Surroundings.inside, List.append_assoc]
    rfl
  nesting := by
    rw [h.nesting, Surroundings.inside, List.append_assoc]
    rfl
  fullName := h.fullName
  container := h.container

namespace LoadedAlong

variable {s : Surroundings} {decls more : List (MessageDecl × Nat)} {messages rest : List Message}

theorem nil (s : Surroundings) : LoadedAlong s [] [] where
  loaded := by
    intro path names h
    cases h with
    | here hd => cases hd
    | inside hd _ => cases hd
  declared := by intro m hm; cases hm
  ordered := List.Pairwise.nil

/-- What is declared at later positions stands at later paths. -/
theorem append (hfirst : LoadedAlong s decls messages) (hrest : LoadedAlong s more rest)
    (hlater : ∀ d ∈ decls, ∀ d' ∈ more, d.2 < d'.2) :
    LoadedAlong s (decls ++ more) (messages ++ rest) where
  loaded := by
    intro path names h
    rcases declaredAlong_append_iff.1 h with h | h
    · obtain ⟨m, hm, hat⟩ := hfirst.loaded path names h
      exact ⟨m, List.mem_append_left rest hm, hat⟩
    · obtain ⟨m, hm, hat⟩ := hrest.loaded path names h
      exact ⟨m, List.mem_append_right messages hm, hat⟩
  declared := by
    intro m hm
    rcases List.mem_append.1 hm with hm | hm
    · obtain ⟨path, names, h, hat⟩ := hfirst.declared m hm
      exact ⟨path, names, declaredAlong_append_iff.2 (Or.inl h), hat⟩
    · obtain ⟨path, names, h, hat⟩ := hrest.declared m hm
      exact ⟨path, names, declaredAlong_append_iff.2 (Or.inr h), hat⟩
  ordered := by
    refine List.pairwise_append.2 ⟨hfirst.ordered, hrest.ordered, ?_⟩
    intro m hm m' hm'
    obtain ⟨path, names, h, hat⟩ := hfirst.declared m hm
    obtain ⟨path', names', h', hat'⟩ := hrest.declared m' hm'
    obtain ⟨d, hd, below, rfl⟩ := h.exists_cons
    obtain ⟨d', hd', below', rfl⟩ := h'.exists_cons
    rw [hat.address, hat'.address]
    exact List.append_left_lt (List.cons_lt_cons_iff.2 (Or.inl (hlater d hd d' hd')))

/-- A message stands in front of those within it. -/
theorem enclose {d : MessageDecl} {position : Nat} {nested : List Message} {m : Message}
    (h : LoadedAlong (s.inside position d.name) d.nested.zipIdx nested)
    (hm : m.At s [position] [d.name]) : LoadedAlong s [(d, position)] (m :: nested) where
  loaded := by
    intro path names hpath
    cases hpath with
    | here hd =>
      cases List.mem_singleton.1 hd
      exact ⟨m, List.mem_cons_self, hm⟩
    | inside hd hinner =>
      cases List.mem_singleton.1 hd
      obtain ⟨x, hx, hat⟩ := h.loaded _ _ hinner
      exact ⟨x, List.mem_cons_of_mem m hx, hat.outside⟩
  declared := by
    intro x hx
    rcases List.mem_cons.1 hx with rfl | hx
    · exact ⟨_, _, .here (List.mem_singleton_self _), hm⟩
    · obtain ⟨path, names, hinner, hat⟩ := h.declared x hx
      exact ⟨_, _, .inside (List.mem_singleton_self _) hinner, hat.outside⟩
  ordered := by
    refine List.pairwise_cons.2 ⟨?_, h.ordered⟩
    intro x hx
    obtain ⟨path, names, hinner, hat⟩ := h.declared x hx
    obtain ⟨_, _, rest, rfl⟩ := hinner.exists_cons
    rw [hm.address, hat.outside.address]
    exact List.append_left_lt (List.cons_lt_cons_iff.2 (Or.inr ⟨rfl, List.nil_lt_cons _ _⟩))

end LoadedAlong

-- The induction follows the declarations: a message stands in front of the list of those it contains.
mutual

theorem loadedAlong_toMessages (s : Surroundings) (position : Nat) :
    ∀ (d : MessageDecl) {messages : List Message}, d.toMessages s position = .ok messages →
      LoadedAlong s [(d, position)] messages
  | ⟨name, fields, nested, enums, isMapEntry, options⟩, messages, h => by
    rw [MessageDecl.toMessages] at h
    obtain ⟨_, -, h⟩ := exists_of_bind_eq_ok h
    obtain ⟨inner, hinner, h⟩ := exists_of_bind_eq_ok h
    obtain ⟨_, -, h⟩ := exists_of_bind_eq_ok h
    cases h
    have hnested := loadedAlong_toMessagesList (s.inside position name) 0 nested hinner
    refine hnested.enclose ⟨rfl, rfl, rfl, ?_⟩
    simp [Address.outer?, Surroundings.inside, Surroundings.container]

theorem loadedAlong_toMessagesList (s : Surroundings) (position : Nat) :
    ∀ (ds : List MessageDecl) {messages : List Message},
      toMessagesList s position ds = .ok messages → LoadedAlong s (ds.zipIdx position) messages
  | [], messages, h => by
    cases h
    exact .nil s
  | d :: ds, messages, h => by
    rw [toMessagesList] at h
    obtain ⟨first, hfirst, h⟩ := exists_of_bind_eq_ok h
    obtain ⟨rest, hrest, h⟩ := exists_of_bind_eq_ok h
    cases h
    refine (loadedAlong_toMessages s position d hfirst).append
      (loadedAlong_toMessagesList s (position + 1) ds hrest) ?_
    intro x hx y hy
    rw [List.mem_singleton.1 hx]
    exact List.le_snd_of_mem_zipIdx hy

end

/-- A message that is loaded for a path of a file. -/
structure Message.LoadedFor (file : FileDecl) (path : List Nat) (names : List String)
    (m : Message) : Prop where
  address : m.address = ⟨file.name, path⟩
  nesting : m.nesting = names
  container : m.container = m.address.outer?
  nested : m.NestedIn file.package

/-- The messages that are loaded from files, one for each path of each file, and in which order. -/
structure LoadedFrom (files : List FileDecl) (messages : List Message) : Prop where
  loaded : ∀ file ∈ files, ∀ path names, file.DeclaresAt path names →
    ∃ m ∈ messages, m.LoadedFor file path names
  declared : ∀ m ∈ messages, ∃ file ∈ files, ∃ path names, file.DeclaresAt path names ∧
    m.LoadedFor file path names
  ordered : messages.Pairwise fun m m' => LoadedBefore files m.address m'.address

/-- A message whose fields are left out, which is all that looking names up changes. -/
def Message.withoutFields (m : Message) : Message :=
  { m with fields := [] }

theorem Message.LoadedFor.of_withoutFields_eq {file : FileDecl} {path : List Nat}
    {names : List String} {m m' : Message} (h : m.LoadedFor file path names)
    (heq : m.withoutFields = m'.withoutFields) : m'.LoadedFor file path names := by
  cases m
  cases m'
  cases heq
  exact ⟨h.address, h.nesting, h.container, h.nested.fullName, h.nested.outermost⟩

namespace LoadedFrom

variable {file : FileDecl} {files : List FileDecl} {messages rest : List Message}

theorem declare {part : Pool} (h : ({} : Pool).declare file = .ok part) :
    LoadedFrom [file] part.messages := by
  obtain ⟨messages, hmessages, h⟩ := exists_of_bind_eq_ok h
  cases h
  have halong := loadedAlong_toMessagesList _ 0 file.messages hmessages
  have hnested : ∀ m ∈ messages, m.NestedIn file.package :=
    nestedIn_toMessagesList ⟨rfl, rfl⟩ 0 file.messages hmessages
  have hfor : ∀ {m path names}, m ∈ messages →
      m.At { file := file.name, scope := file.package } path names →
        m.LoadedFor file path names := by
    intro m path names hm hat
    exact ⟨hat.address, hat.nesting, hat.container, hnested m hm⟩
  constructor
  · intro other hother path names hpath
    cases List.mem_singleton.1 hother
    obtain ⟨m, hm, hat⟩ := halong.loaded path names hpath
    exact ⟨m, hm, hfor hm hat⟩
  · intro m hm
    obtain ⟨path, names, hpath, hat⟩ := halong.declared m hm
    exact ⟨file, List.mem_singleton_self file, path, names, hpath, hfor hm hat⟩
  · refine halong.ordered.imp_of_mem ?_
    intro m m' hm hm' horder
    obtain ⟨_, _, -, hat⟩ := halong.declared m hm
    obtain ⟨_, _, -, hat'⟩ := halong.declared m' hm'
    refine Or.inr ⟨?_, horder⟩
    rw [hat.address, hat'.address]

theorem cons (hfirst : LoadedFrom [file] messages) (hrest : LoadedFrom files rest) :
    LoadedFrom (file :: files) (messages ++ rest) where
  loaded := by
    intro other hother path names hpath
    rcases List.mem_cons.1 hother with rfl | hother
    · obtain ⟨m, hm, hfor⟩ := hfirst.loaded other (List.mem_singleton_self other) path names hpath
      exact ⟨m, List.mem_append_left rest hm, hfor⟩
    · obtain ⟨m, hm, hfor⟩ := hrest.loaded other hother path names hpath
      exact ⟨m, List.mem_append_right messages hm, hfor⟩
  declared := by
    intro m hm
    rcases List.mem_append.1 hm with hm | hm
    · obtain ⟨other, hother, hpath⟩ := hfirst.declared m hm
      cases List.mem_singleton.1 hother
      exact ⟨file, List.mem_cons_self, hpath⟩
    · obtain ⟨other, hother, hpath⟩ := hrest.declared m hm
      exact ⟨other, List.mem_cons_of_mem file hother, hpath⟩
  ordered := by
    refine List.pairwise_append.2 ⟨?_, ?_, ?_⟩
    · refine hfirst.ordered.imp fun horder => horder.imp_left ?_
      intro hsub
      exact hsub.trans (List.cons_sublist_cons.2 (List.nil_sublist _))
    · refine hrest.ordered.imp fun horder => horder.imp_left ?_
      exact List.Sublist.cons file.name
    · intro m hm m' hm'
      obtain ⟨first, hfirstFile, _, _, -, hfor⟩ := hfirst.declared m hm
      obtain ⟨second, hsecond, _, _, -, hfor'⟩ := hrest.declared m' hm'
      cases List.mem_singleton.1 hfirstFile
      refine Or.inl ?_
      rw [hfor.address, hfor'.address]
      exact List.cons_sublist_cons.2 (List.singleton_sublist.2 (List.mem_map_of_mem hsecond))

theorem parts {parts : List Pool} (h : Pool.Parts files parts) :
    LoadedFrom files (parts.flatMap (·.messages)) := by
  induction h with
  | nil => exact ⟨by simp, by simp, List.Pairwise.nil⟩
  | cons hfirst _ ih => exact (declare hfirst).cons ih

/-- Messages that differ in their fields only are loaded from the same files. -/
theorem of_map_withoutFields_eq {others : List Message} (h : LoadedFrom files messages)
    (hsame : messages.map (·.withoutFields) = others.map (·.withoutFields)) :
    LoadedFrom files others where
  loaded := by
    intro file hfile path names hpath
    obtain ⟨m, hm, hfor⟩ := h.loaded file hfile path names hpath
    have hmem := List.mem_map_of_mem (f := (·.withoutFields)) hm
    rw [hsame] at hmem
    obtain ⟨m', hm', heq⟩ := List.mem_map.1 hmem
    exact ⟨m', hm', hfor.of_withoutFields_eq heq.symm⟩
  declared := by
    intro m' hm'
    have hmem := List.mem_map_of_mem (f := (·.withoutFields)) hm'
    rw [← hsame] at hmem
    obtain ⟨m, hm, heq⟩ := List.mem_map.1 hmem
    obtain ⟨file, hfile, path, names, hpath, hfor⟩ := h.declared m hm
    exact ⟨file, hfile, path, names, hpath, hfor.of_withoutFields_eq heq⟩
  ordered := by
    have hordered : (messages.map (·.withoutFields)).Pairwise fun m m' =>
        LoadedBefore files m.address m'.address := List.pairwise_map.2 h.ordered
    rw [hsame, List.pairwise_map] at hordered
    exact hordered

/-- The messages of a loaded schema are loaded from the files that it is loaded from. -/
theorem load {pool : Pool} (hnames : (files.map (·.name)).Nodup)
    (h : (Pool.load files).2 = .ok pool) : LoadedFrom files pool.messages := by
  obtain ⟨declared, hdeclared, hresolve⟩ := exists_of_bind_eq_ok h
  obtain ⟨parts, hparts, rfl⟩ := (Pool.declareAll_eq_ok_iff hnames fun _ _ => rfl).1 hdeclared
  obtain ⟨resolved, hresolved, rfl⟩ := Pool.resolve_eq_ok_iff.1 hresolve
  rw [Pool.foldl_append] at hresolved
  refine (LoadedFrom.parts hparts).of_map_withoutFields_eq ?_
  refine map_eq_map_of_forall₂ hresolved fun m m' hm => ?_
  obtain ⟨fields, -, rfl⟩ := Pool.resolveMessage_eq_ok_iff.1 hm
  rfl

end LoadedFrom

end FluentGen.Schema
