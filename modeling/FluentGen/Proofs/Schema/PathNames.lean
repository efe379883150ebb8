import FluentGen.Proofs.Schema.Paths

/-!
The names along the path of a message. They are read off it in every way: its full name, the
messages around it, its package and its class name. Of the messages with one full name, the last one
that is loaded is found by it.
-/

namespace FluentGen.Schema

open Name (dotPath)

/-- The package and the class name, read off a message and the messages around it, from the inside
to the outermost one. -/
def readAlong (m : Message) (chain : List Message) : String × String :=
  ((Text.cutLast '.' (chain.getLast?.getD m).fullName).1,
    chain.foldl (fun name outer => outer.name ++ "_" ++ name) m.name)

namespace Pool

/-- The messages around a message, each found at the address that the one before it gives as the
message around it. -/
inductive Around (pool : Pool) : Message → List Message → Prop
  | outermost {m : Message} (hcontainer : m.container = none) : pool.Around m []
  | inside {m outer : Message} {address : Address} {chain : List Message}
      (hcontainer : m.container = some address) (houter : pool.message? address = some outer)
      (hchain : pool.Around outer chain) : pool.Around m (outer :: chain)

/-- The last of the messages with a full name. -/
structure LastLoaded (pool : Pool) (files : List FileDecl) (name : String) (last : Message) :
    Prop where
  loaded : last ∈ pool.messages
  fullName : last.fullName = name
  last : ∀ m ∈ pool.messages, m.fullName = name →
    m = last ∨ LoadedBefore files m.address last.address

/-- The message that is loaded for a path of a file, and how the names along the path are read off
it. -/
structure NamedAlong (pool : Pool) (files : List FileDecl) (file : FileDecl) (path : List Nat)
    (names : List String) (m : Message) : Prop where
  loaded : m ∈ pool.messages
  address : m.address = ⟨file.name, path⟩
  alone : ∀ m' ∈ pool.messages, m'.address = m.address → m' = m
  name : names.getLast? = some m.name
  fullName : m.fullName =
    dotPath (if file.package = "" then names else file.package :: names)
  around : ∃ chain, pool.Around m chain ∧ chain.map (·.name) = names.dropLast.reverse ∧
    readAlong m chain = (m.package, m.className)
  package : m.package = file.package
  className : m.className = "_".intercalate names
  found : ∃ last, pool.LastLoaded files m.fullName last ∧
    ∀ dots, pool.messageNamed? (String.ofList (List.replicate dots '.') ++ m.fullName) = some last

end Pool

section Names

variable {package name scope : String} {names : List String} {m outer : Message}

/-- Names in a package, which may be empty. -/
theorem foldl_qualify_eq (hne : names ≠ []) (hnames : ∀ n ∈ names, n ≠ "") :
    names.foldl qualify package =
      dotPath (if package = "" then names else package :: names) := by
  split
  · next hempty =>
    obtain ⟨first, rest, rfl⟩ := List.exists_cons_of_ne_nil hne
    rw [hempty]
    exact foldl_qualify (hnames first List.mem_cons_self) rest
  · next hopen => exact foldl_qualify hopen names

theorem head?_qualify (hscope : scope.toList.head? ≠ some '.') (hname : '.' ∉ name.toList) :
    (qualify scope name).toList.head? ≠ some '.' := by
  rw [qualify]
  split
  · exact fun hhead => hname (List.mem_of_mem_head? hhead)
  · next hopen =>
    obtain ⟨c, rest, hchars⟩ := List.exists_cons_of_ne_nil
      (mt String.toList_eq_nil_iff.1 (mt String.isEmpty_iff.2 hopen))
    rw [String.toList_append, String.toList_append, hchars]
    rwa [hchars] at hscope

theorem head?_foldl_qualify (hpackage : package.toList.head? ≠ some '.')
    (hnames : ∀ n ∈ names, '.' ∉ n.toList) :
    (names.foldl qualify package).toList.head? ≠ some '.' := by
  induction names generalizing package with
  | nil => exact hpackage
  | cons first rest ih =>
    obtain ⟨hfirst, hrest⟩ := List.forall_mem_cons.1 hnames
    exact ih (head?_qualify hpackage hfirst) hrest

/-- Dots in front of a name that begins with none do not matter. -/
theorem withoutLeadingDots_append (h : name.toList.head? ≠ some '.') (dots : Nat) :
    withoutLeadingDots (String.ofList (List.replicate dots '.') ++ name) = name := by
  have hdots : ∀ c ∈ List.replicate dots '.', decide (c = '.') = true := by
    intro c hc
    exact decide_eq_true (List.eq_of_mem_replicate hc)
  have hname : name.toList.dropWhile (· = '.') = name.toList := by
    cases hchars : name.toList with
    | nil => rfl
    | cons c rest =>
      rw [hchars] at h
      have hc : c ≠ '.' := fun hdot => h (congrArg some hdot)
      exact List.dropWhile_cons_of_neg (by simpa using hc)
  rw [withoutLeadingDots, String.toList_append, String.toList_ofList,
    List.dropWhile_append_of_pos hdots, hname, String.ofList_toList]

theorem foldl_underscores (enclosing : List String) (name : String) :
    enclosing.reverse.foldl (fun inner outer => outer ++ "_" ++ inner) name =
      "_".intercalate (enclosing ++ [name]) := by
  rw [List.foldl_reverse]
  induction enclosing with
  | nil => exact String.intercalate_singleton.symm
  | cons first rest ih =>
    rw [List.foldr_cons, ih, List.cons_append, String.intercalate_cons_of_ne_nil (by simp)]

/-- What is read off the messages around a message is what the message itself says. -/
theorem readAlong_eq {chain : List Message} (hchain : chain.map (·.name) = m.enclosing.reverse)
    (houtermost : (chain.getLast?.getD m).fullName = m.outermost) :
    readAlong m chain = (m.package, m.className) := by
  have hname : chain.foldl (fun name outer => outer.name ++ "_" ++ name) m.name = m.className := by
    rw [Message.className, ← foldl_underscores, ← hchain, List.foldl_map]
  rw [readAlong, houtermost, hname]
  rfl

end Names

section Loaded

variable {file : FileDecl} {files : List FileDecl} {path : List Nat} {names : List String}
  {pool : Pool} {m outer : Message}

theorem Message.LoadedFor.enclosing (h : m.LoadedFor file path names) :
    m.enclosing = names.dropLast := by
  rw [← h.nesting, Message.nesting, List.dropLast_concat]

/-- A message has the same outermost message as the one directly around it. -/
theorem outermost_eq_of_enclosing {package : String} (hm : m.NestedIn package)
    (houter : outer.NestedIn package) (henclosing : m.enclosing = outer.nesting) :
    m.outermost = outer.outermost := by
  rw [hm.outermost, houter.outermost, henclosing, Message.nesting]
  cases outer.enclosing with
  | nil => rfl
  | cons first rest => rfl

namespace Pool

theorem message?_eq_some (hplaces : (pool.messages.map (·.address)).Nodup)
    (hm : m ∈ pool.messages) : pool.message? m.address = some m :=
  (find?_eq_some_iff_of_nodup hplaces).2 ⟨hm, rfl⟩

/-- The messages around a message lead to its outermost one, and their names are those that the
message itself knows. -/
theorem exists_around (hfrom : LoadedFrom files pool.messages)
    (hplaces : (pool.messages.map (·.address)).Nodup) (hfile : file ∈ files)
    (hpath : file.DeclaresAt path names) (hfor : m.LoadedFor file path names) :
    ∃ chain, pool.Around m chain ∧ chain.map (·.name) = m.enclosing.reverse ∧
      (chain.getLast?.getD m).fullName = m.outermost := by
  -- Each step to the message around drops the last position of the path.
  induction path using List.reverseRecOn generalizing names m with
  | nil =>
    obtain ⟨_, _, _, hnil⟩ := hpath.exists_cons
    cases hnil
  | append_singleton init position ih =>
    by_cases hinit : init = []
    · have hcontainer : m.container = none := by
        rw [hfor.container, hfor.address, hinit]
        rfl
      have henclosing : m.enclosing = [] := by
        rw [hfor.enclosing]
        exact hpath.names_dropLast_eq_nil (by rw [List.dropLast_concat, hinit])
      refine ⟨[], .outermost hcontainer, by rw [henclosing]; rfl, ?_⟩
      show m.fullName = m.outermost
      rw [hfor.nested.fullName, hfor.nested.outermost, Message.nesting, henclosing]
      rfl
    · have hparent := hpath.dropLast (by rwa [List.dropLast_concat])
      rw [List.dropLast_concat] at hparent
      obtain ⟨outer, houter, houterFor⟩ := hfrom.loaded file hfile _ _ hparent
      have henclosing : m.enclosing = outer.nesting := hfor.enclosing.trans houterFor.nesting.symm
      have hcontainer : m.container = some outer.address := by
        rw [hfor.container, hfor.address, houterFor.address, Address.outer?, List.dropLast_concat,
          if_neg (by simpa using hinit)]
      obtain ⟨chain, hchain, hchainNames, hlast⟩ := ih hparent houterFor
      refine ⟨outer :: chain, .inside hcontainer (message?_eq_some hplaces houter) hchain, ?_, ?_⟩
      · rw [List.map_cons, hchainNames, henclosing, Message.nesting, List.reverse_concat]
      · rw [List.getLast?_cons, Option.getD_some, hlast]
        exact (outermost_eq_of_enclosing hfor.nested houterFor.nested henclosing).symm

/-- A full name leads to the last of the messages that have it. -/
theorem exists_lastLoaded (hfrom : LoadedFrom files pool.messages) (hm : m ∈ pool.messages) :
    ∃ last, pool.LastLoaded files m.fullName last ∧
      pool.messages.reverse.find? (·.fullName == m.fullName) = some last := by
  obtain ⟨last, hlast⟩ := exists_find?_reverse_iff.2 (List.mem_map_of_mem (f := (·.fullName)) hm)
  refine ⟨last, ?_, hlast⟩
  obtain ⟨hmem, hname⟩ := mem_of_find?_reverse hlast
  refine ⟨hmem, hname, ?_⟩
  intro other hother hsame
  obtain ⟨-, after, before, hsplit, hafter⟩ := List.find?_eq_some_iff_append.1 hlast
  have hmessages : pool.messages = before.reverse ++ last :: after.reverse := by
    rw [← List.reverse_reverse pool.messages, hsplit]
    simp
  have hordered := hfrom.ordered
  rw [hmessages] at hother hordered
  rcases List.mem_append.1 hother with hbefore | hrest
  · exact Or.inr ((List.pairwise_append.1 hordered).2.2 other hbefore last List.mem_cons_self)
  · rcases List.mem_cons.1 hrest with hlast | hrest
    · exact Or.inl hlast
    · have hne := hafter other (List.mem_reverse.1 hrest)
      simp [hsame] at hne

example : (load [{ messages := [{ nested := [{}] }] }]).2.toOption.map
    (fun pool => (pool.messageNamed? "").map (·.address.path)) = some (some [0, 0]) := by
  decide +kernel

/-- The names along the path of a message are read off it in every way. -/
theorem namedAlong_of_loadedFor (hfrom : LoadedFrom files pool.messages)
    (hplaces : (pool.messages.map (·.address)).Nodup)
    (hnames : ∀ m ∈ pool.messages, ∀ n ∈ m.nesting, n ≠ "" ∧ '.' ∉ n.toList) (hfile : file ∈ files)
    (hpackage : file.package.toList.head? ≠ some '.') (hpath : file.DeclaresAt path names)
    (hm : m ∈ pool.messages) (hfor : m.LoadedFor file path names) :
    pool.NamedAlong files file path names m := by
  have hplain : ∀ n ∈ names, n ≠ "" ∧ '.' ∉ n.toList := hfor.nesting ▸ hnames m hm
  have hfullName : m.fullName = names.foldl qualify file.package := by
    rw [hfor.nested.fullName, hfor.nesting]
  have hhead : m.fullName.toList.head? ≠ some '.' := by
    rw [hfullName]
    exact head?_foldl_qualify hpackage fun n hn => (hplain n hn).2
  obtain ⟨chain, haround, hchain, houtermost⟩ := exists_around hfrom hplaces hfile hpath hfor
  obtain ⟨last, hlast, hfind⟩ := exists_lastLoaded hfrom hm
  constructor
  case loaded => exact hm
  case address => exact hfor.address
  case alone => exact fun m' hm' => List.inj_on_of_nodup_map hplaces hm' hm
  case name => rw [← hfor.nesting, Message.nesting, List.getLast?_concat]
  case fullName =>
    rw [hfullName, foldl_qualify_eq hpath.names_ne_nil fun n hn => (hplain n hn).1]
  case around =>
    refine ⟨chain, haround, ?_, readAlong_eq hchain houtermost⟩
    rw [hchain, hfor.enclosing]
  case package => exact hfor.nested.package_eq fun n hn => (hnames m hm n hn).2
  case className => exact congrArg _ hfor.nesting
  case found =>
    refine ⟨last, hlast, ?_⟩
    intro dots
    rw [messageNamed?, withoutLeadingDots_append hhead]
    exact hfind

/-- Names follow the nesting. A schema is loaded from the first file of each name. It has one
message for each path of one of them, whose full name, surrounding messages, package and class name
are made of the names along the path, and whose full name leads to the last message that has it. -/
theorem names_along_paths (h : (load files).2 = .ok pool)
    (hnames : ∀ file ∈ files, ∀ d ∈ file.declared,
      d.message.name ≠ "" ∧ '.' ∉ d.message.name.toList) :
    (load (firstOfEachName files)).2 = .ok pool ∧
      (∀ file ∈ firstOfEachName files, file.package.toList.head? ≠ some '.' →
        ∀ path names, file.DeclaresAt path names →
          ∃ m, pool.NamedAlong (firstOfEachName files) file path names m) ∧
      ∀ m ∈ pool.messages, ∃ file ∈ firstOfEachName files, ∃ path names,
        file.DeclaresAt path names ∧ m.address = ⟨file.name, path⟩ := by
  have hkept : (load (firstOfEachName files)).2 = .ok pool := (load_firstOfEachName files).trans h
  have hfrom := LoadedFrom.load (nodup_firstOfEachName files) hkept
  have hloadedNames : ∀ m ∈ pool.messages, ∀ n ∈ m.nesting, n ≠ "" ∧ '.' ∉ n.toList := by
    intro m hm n hn
    obtain ⟨file, hfile, path, names, hpath, hfor⟩ := hfrom.declared m hm
    rw [hfor.nesting] at hn
    obtain ⟨d, hd, rfl⟩ :=
      hpath.exists_declared (fun x => List.fst_mem_of_mem_zipIdx) file.package n hn
    exact hnames file (mem_of_mem_firstOfEachName hfile) d hd
  refine ⟨hkept, ?_, ?_⟩
  · intro file hfile hpackage path names hpath
    obtain ⟨m, hm, hfor⟩ := hfrom.loaded file hfile path names hpath
    exact ⟨m, namedAlong_of_loadedFor hfrom (placed_load h).nodup hloadedNames hfile hpackage hpath
      hm hfor⟩
  · intro m hm
    obtain ⟨file, hfile, path, names, hpath, hfor⟩ := hfrom.declared m hm
    exact ⟨file, hfile, path, names, hpath, hfor.address⟩

/-- Two paths that spell the same full name in two packages, a file without a package, and one that
is there twice. -/
theorem names_along_paths_meeting :
    let first : FileDecl :=
      { name := "a.proto", package := "p.q"
        messages := [{ name := "A", nested := [{ name := "B" },
          { name := "C", nested := [{ name := "D" }] }] }] }
    let again : FileDecl := { name := "a.proto", package := "z", messages := [{ name := "Z" }] }
    let second : FileDecl :=
      { name := "b.proto", package := "p"
        messages := [{ name := "q", nested := [
          { name := "A", nested := [{ name := "C", nested := [{ name := "D" }] }] }] }] }
    let bare : FileDecl :=
      { name := "c.proto", messages := [{ name := "E", nested := [{ name := "F" }] }] }
    let files := [first, again, second, bare]
    let kept := [first, second, bare]
    ∃ pool m m' m'', (load files).2 = .ok pool ∧ (load kept).2 = .ok pool ∧
      pool.NamedAlong kept first [0, 1, 0] ["A", "C", "D"] m ∧
      pool.NamedAlong kept second [0, 0, 0, 0] ["q", "A", "C", "D"] m' ∧
      pool.NamedAlong kept bare [0, 0] ["E", "F"] m'' ∧
      m.fullName = "p.q.A.C.D" ∧ m.package = "p.q" ∧ m.className = "A_C_D" ∧
      m'.fullName = "p.q.A.C.D" ∧ m'.package = "p" ∧ m'.className = "q_A_C_D" ∧
      m''.fullName = "E.F" ∧ m''.package = "" ∧ m''.className = "E_F" ∧
      pool.messageNamed? "..p.q.A.C.D" = some m' := by
  intro first again second bare files kept
  have hloaded : (load files).2.toOption.isSome = true := by decide +kernel
  obtain ⟨pool, hpool⟩ : ∃ pool, (load files).2 = .ok pool := by
    cases h : (load files).2 with
    | ok pool => exact ⟨pool, rfl⟩
    | error failure =>
      rw [h] at hloaded
      cases hloaded
  obtain ⟨hkept, hpaths, -⟩ := names_along_paths hpool (by decide +kernel)
  have hfiles : firstOfEachName files = kept := rfl
  rw [hfiles] at hkept hpaths
  have hfirst : first.DeclaresAt [0, 1, 0] ["A", "C", "D"] :=
    .inside List.mem_cons_self (.inside (List.mem_cons_of_mem _ List.mem_cons_self)
      (.here List.mem_cons_self))
  have hsecond : second.DeclaresAt [0, 0, 0, 0] ["q", "A", "C", "D"] :=
    .inside List.mem_cons_self (.inside List.mem_cons_self (.inside List.mem_cons_self
      (.here List.mem_cons_self)))
  have hbare : bare.DeclaresAt [0, 0] ["E", "F"] :=
    .inside List.mem_cons_self (.here List.mem_cons_self)
  obtain ⟨m, hm⟩ := hpaths first (by simp [kept]) (by decide +kernel) _ _ hfirst
  obtain ⟨m', hm'⟩ := hpaths second (by simp [kept]) (by decide +kernel) _ _ hsecond
  obtain ⟨m'', hm''⟩ := hpaths bare (by simp [kept]) (by decide +kernel) _ _ hbare
  have hlast : (load files).2.toOption.map
      (fun pool => (pool.messageNamed? "..p.q.A.C.D").map (·.address)) =
        some (some ⟨"b.proto", [0, 0, 0, 0]⟩) := by decide +kernel
  rw [hpool] at hlast
  obtain ⟨last, hfound, haddress⟩ := Option.map_eq_some_iff.1 (Option.some.inj hlast)
  have hsame : last = m' := by
    refine hm'.alone last (mem_of_find?_reverse hfound).1 ?_
    rw [haddress, hm'.address]
  rw [hsame] at hfound
  exact ⟨pool, m, m', m'', hpool, hkept, hm, hm', hm'', hm.fullName, hm.package, hm.className,
    hm'.fullName, hm'.package, hm'.className, hm''.fullName, hm''.package, hm''.className, hfound⟩

end Pool

end Loaded

end FluentGen.Schema
