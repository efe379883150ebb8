import FluentGen.Proofs.Schema.Closure
import FluentGen.Proofs.Schema.Regrouped

/-!
Groups in the selection of messages. A search follows no group, although a group refers to a message
as a message field does. Where message fields become groups, nothing is selected that was not before,
and what only they led to is left out. A search that loses nothing by them takes the same steps.
-/

namespace FluentGen.Schema

namespace Pool

/-- If the first field holds a message of the file that is not at its top level, the second field
holds one as well. -/
def Keeps (pool pool' : Pool) (file : String) (f f' : Field) : Prop :=
  ∀ inner several, pool.elementMessage? f = some (inner, several) → inner.address.file = file →
    inner.container ≠ none → (pool'.elementMessage? f').isSome = true

instance (pool pool' : Pool) (file : String) (f f' : Field) :
    Decidable (pool.Keeps pool' file f f') :=
  decidable_of_iff (∀ e ∈ pool.elementMessage? f, e.1.address.file = file →
      e.1.container ≠ none → (pool'.elementMessage? f').isSome = true)
    ⟨fun h inner several helement => h (inner, several) helement, fun h e helement =>
      h e.1 e.2 helement⟩

/-- No field of a message that is reached has lost a message of the file, but one of its top
level. -/
def KeepsAll (pool pool' : Pool) (file : String) : Prop :=
  List.Forall₂ (fun m m' => pool.Reaches file m →
    List.Forall₂ (pool.Keeps pool' file) m.fields m'.fields) pool.messages pool'.messages

theorem mem_messages_of_elementMessage? {pool : Pool} {f : Field} {inner : Message} {several : Bool}
    (h : pool.elementMessage? f = some (inner, several)) : inner ∈ pool.messages := by
  obtain ⟨-, ⟨-, htarget, -⟩ | ⟨-, -, value, -, -, htarget⟩⟩ := elementMessage?_eq_some_iff.1 h
  · exact mem_messages_of_targetMessage? htarget
  · exact mem_messages_of_targetMessage? htarget

end Pool

namespace Search

/-!
The search in both schemas, where no message is lost.
-/

section Simulation

variable {pool pool' : Pool} {file : String} {all : Bool} {s s' : Search} {f f' : Field}
  {inner inner' : Message}

/-- The same message with some message fields as groups, none of which has lost a message if it is
reached. -/
structure Kept (pool pool' : Pool) (file : String) (m m' : Message) : Prop where
  regrouped : m.Regrouped m'
  fields : pool.Reaches file m → List.Forall₂ (pool.Keeps pool' file) m.fields m'.fields

/-- Searches that have come equally far. -/
structure Alongside (pool pool' : Pool) (file : String) (s s' : Search) : Prop where
  selected : List.Forall₂ (Kept pool pool' file) s.selected s'.selected
  queued : s'.queued = s.queued
  queue : List.Forall₂ (Kept pool pool' file) s.queue s'.queue
  begins : pool.topLevel file ⊆ s.selected
  reached : ∀ m ∈ s.queue, pool.Reaches file m

namespace Alongside

theorem enqueue (h : Alongside pool pool' file s s') (hinner : Kept pool pool' file inner inner')
    (hreached : pool.Reaches file inner) :
    Alongside pool pool' file (s.enqueue inner) (s'.enqueue inner') := by
  unfold Search.enqueue
  rw [hinner.regrouped.address, h.queued]
  split
  · exact h
  · refine ⟨h.selected, rfl, List.rel_append h.queue (.cons hinner .nil), h.begins, ?_⟩
    exact List.forall_mem_append.2 ⟨h.reached, List.forall_mem_singleton.2 hreached⟩

theorem choose (h : Alongside pool pool' file s s') (hinner : Kept pool pool' file inner inner')
    (wanted : Bool) :
    Alongside pool pool' file (s.choose wanted inner) (s'.choose wanted inner') := by
  unfold Search.choose
  split
  · exact ⟨List.rel_append h.selected (.cons hinner .nil), h.queued, h.queue,
      List.subset_append_of_subset_left _ h.begins, h.reached⟩
  · exact h

theorem any_selected (hpool : pool.Matching pool' (Kept pool pool' file))
    (h : Alongside pool pool' file s s') (address : Address) :
    s'.selected.any (·.address == address) = s.selected.any (·.address == address) := by
  have haddresses := hpool.map_address_eq h.selected
  simpa [List.any_map, Function.comp_def] using
    congrArg (List.any · (· == address)) haddresses

/-- A field that is no longer followed has not led anywhere. -/
theorem lookAt_eq_self (h : Alongside pool pool' file s s') (hkeeps : pool.Keeps pool' file f f')
    (hnone : pool'.elementMessage? f' = none) : lookAt pool file all s f = s := by
  rw [lookAt_eq]
  cases helement : pool.elementMessage? f with
  | none => rfl
  | some element =>
    obtain ⟨inner, several⟩ := element
    apply if_pos
    by_cases hfile : inner.address.file = file
    · have htop : inner.container = none := by
        by_contra hnested
        have hsome := hkeeps inner several helement hfile hnested
        rw [hnone] at hsome
        cases hsome
      have hmem : inner ∈ pool.messages := Pool.mem_messages_of_elementMessage? helement
      have hselected : inner ∈ s.selected :=
        h.begins (List.mem_filter.2 ⟨hmem, by simp [htop, hfile]⟩)
      rw [Bool.or_eq_true, List.any_eq_true]
      exact Or.inl ⟨inner, hselected, beq_self_eq_true _⟩
    · simp [hfile]

theorem lookAt (hpool : pool.Matching pool' (Kept pool pool' file))
    (h : Alongside pool pool' file s s') {m : Message} (hreached : pool.Reaches file m)
    (hmem : f ∈ m.fields) (hf : f.Regrouped f') (hkeeps : pool.Keeps pool' file f f') :
    Alongside pool pool' file (lookAt pool file all s f) (lookAt pool' file all s' f') := by
  cases helement : pool'.elementMessage? f' with
  | none =>
    rw [h.lookAt_eq_self hkeeps helement, lookAt_eq, helement]
    exact h
  | some element =>
    obtain ⟨inner', several⟩ := element
    obtain ⟨inner, hinner, hbefore⟩ := hpool.exists_elementMessage? hf helement
    rw [lookAt_eq, lookAt_eq, helement, hbefore]
    dsimp only
    rw [h.any_selected hpool, hinner.regrouped.address]
    split
    · exact h
    · next hnew =>
      have hfile : inner.address.file = file := by
        by_contra hother
        exact hnew (by simp [hother])
      have hholds : pool.Holds file m several inner :=
        Pool.holds_iff.2 ⟨hfile, f, hmem, hbefore⟩
      exact (h.enqueue hinner (hreached.step hholds)).choose hinner _

theorem lookAtAll (hpool : pool.Matching pool' (Kept pool pool' file))
    {m : Message} (hreached : pool.Reaches file m) {fields fields' : List Field}
    (hfields : fields ⊆ m.fields) (hregrouped : List.Forall₂ Field.Regrouped fields fields')
    (hkeeps : List.Forall₂ (pool.Keeps pool' file) fields fields')
    (h : Alongside pool pool' file s s') :
    Alongside pool pool' file (fields.foldl (Search.lookAt pool file all) s)
      (fields'.foldl (Search.lookAt pool' file all) s') := by
  induction hregrouped generalizing s s' with
  | nil => exact h
  | cons hfirst _ ih =>
    obtain ⟨hf, hfields⟩ := List.cons_subset.1 hfields
    cases hkeeps with
    | cons hkept hrest => exact ih hfields hrest (h.lookAt hpool hreached hf hfirst hkept)

theorem visit (hpool : pool.Matching pool' (Kept pool pool' file))
    (visits : Nat) (h : Alongside pool pool' file s s') :
    Alongside pool pool' file (visit pool file all visits s) (visit pool' file all visits s') := by
  induction visits generalizing s s' with
  | zero => exact h
  | succ visits ih =>
    obtain ⟨selected, queued, queue⟩ := s
    obtain ⟨selected', queued', queue'⟩ := s'
    obtain ⟨hselected, hqueued, hqueue, hbegins, hreached⟩ := h
    cases hqueue with
    | nil => exact ⟨hselected, hqueued, .nil, hbegins, hreached⟩
    | @cons m m' rest rest' hfirst hrest =>
      have hnext : Alongside pool pool' file ⟨selected, queued, rest⟩ ⟨selected', queued', rest'⟩ :=
        ⟨hselected, hqueued, hrest, hbegins, (List.forall_mem_cons.1 hreached).2⟩
      have hm : pool.Reaches file m := (List.forall_mem_cons.1 hreached).1
      exact ih (hnext.lookAtAll hpool hm (List.Subset.refl _) hfirst.regrouped.fields
        (hfirst.fields hm))

end Alongside

theorem alongside_start (hpool : pool.Matching pool' (Kept pool pool' file)) :
    Alongside pool pool' file (start pool file) (start pool' file) := by
  have htop := hpool.rel_topLevel file
  exact ⟨htop, hpool.map_address_eq htop, htop, List.Subset.refl _,
    fun _ hm => Pool.reaches_of_mem_topLevel hm⟩

end Simulation

end Search

namespace Pool

variable {pool pool' : Pool} {file : String} {mode : SearchMode}

/-- Where nothing is lost below the top level, all modes select the same. -/
theorem map_address_select (h : pool.Regrouped pool') (hkeeps : pool.KeepsAll pool' file)
    (mode : SearchMode) :
    (pool'.select file mode).map (·.address) = (pool.select file mode).map (·.address) := by
  have hpool : pool.Matching pool' (Search.Kept pool pool' file) :=
    ⟨fun _ _ hm => hm.regrouped, h.messages.mp (fun _ _ hm hfields => ⟨hm, hfields⟩) hkeeps⟩
  have hsearch (all : Bool) (visits : Nat) : Search.Alongside pool pool' file
      (Search.visit pool file all visits (.start pool file))
      (Search.visit pool' file all visits (.start pool' file)) :=
    (Search.alongside_start hpool).visit hpool visits
  have hlength : pool'.messages.length = pool.messages.length := hpool.messages.length_eq.symm
  unfold select
  rw [hlength]
  cases mode with
  | explicit => exact hpool.map_address_eq (hpool.rel_topLevel file)
  | allTopLevel => exact hpool.map_address_eq (hpool.rel_topLevel file)
  | transitiveRepeated => exact hpool.map_address_eq (hsearch _ _).selected
  | transitiveAll => exact hpool.map_address_eq (hsearch _ _).selected

/-!
What is reached, and so what is selected, with groups in the place of message fields.
-/

theorem Holds.of_regrouped (h : pool.Regrouped pool') {m m' inner' : Message} {several : Bool}
    (hm : m.Regrouped m') (hholds : pool'.Holds file m' several inner') :
    ∃ inner, inner.Regrouped inner' ∧ pool.Holds file m several inner := by
  obtain ⟨hfile, f', hf', helement⟩ := holds_iff.1 hholds
  obtain ⟨f, hf, hboth⟩ := exists_left_of_forall₂ hm.fields hf'
  obtain ⟨inner, hinner, hbefore⟩ := h.matching.exists_elementMessage? hboth helement
  exact ⟨inner, hinner, holds_iff.2 ⟨hinner.address ▸ hfile, f, hf, hbefore⟩⟩

theorem Reaches.of_regrouped (h : pool.Regrouped pool') {m' : Message}
    (hreaches : pool'.Reaches file m') : ∃ m, m.Regrouped m' ∧ pool.Reaches file m := by
  obtain ⟨top', htop', hsteps⟩ := hreaches
  induction hsteps with
  | refl =>
    obtain ⟨top, htop, hboth⟩ := exists_left_of_forall₂ (h.matching.rel_topLevel file) htop'
    exact ⟨top, hboth, reaches_of_mem_topLevel htop⟩
  | tail _ hlast ih =>
    obtain ⟨outer, houter, hreached⟩ := ih
    obtain ⟨several, hholds⟩ := hlast
    obtain ⟨inner, hinner, hheld⟩ := hholds.of_regrouped h houter
    exact ⟨inner, hinner, hreached.step hheld⟩

theorem finished_select {files : List FileDecl} (hpool : pool.Placed files) (file : String)
    (hmode : mode = .transitiveRepeated ∨ mode = .transitiveAll) :
    ∃ visited s, s.selected = pool.select file mode ∧
      Search.Finished pool file (mode == .transitiveAll) visited s := by
  obtain ⟨visited, hfinished⟩ := Search.finished_start hpool file (mode == .transitiveAll)
    (Nat.le_succ pool.messages.length)
  refine ⟨visited, _, ?_, hfinished⟩
  rcases hmode with rfl | rfl
  · rfl
  · rfl

theorem mem_select_iff {files : List FileDecl} (hpool : pool.Placed files)
    (hmode : mode = .transitiveRepeated ∨ mode = .transitiveAll) {m : Message} :
    m ∈ pool.select file mode ↔
      m ∈ pool.topLevel file ∨ ∃ outer several, pool.Reaches file outer ∧
        pool.Holds file outer several m ∧ (several = true ∨ mode = .transitiveAll) := by
  obtain ⟨visited, s, hselected, hfinished⟩ := finished_select hpool file hmode
  rw [← hselected, hfinished.mem_selected_iff hpool]
  simp only [Bool.or_eq_true, beq_iff_eq]

/-- Every mode selects the top level messages first, and no message twice. -/
theorem select_begins {files : List FileDecl} (hpool : pool.Placed files) (file : String)
    (mode : SearchMode) :
    pool.topLevel file <+: pool.select file mode ∧
      ((pool.select file mode).map (·.address)).Nodup := by
  have htop : pool.topLevel file <+: pool.topLevel file ∧
      ((pool.topLevel file).map (·.address)).Nodup :=
    ⟨List.prefix_rfl, hpool.nodup.sublist (List.filter_sublist.map _)⟩
  have htransitive (h : mode = .transitiveRepeated ∨ mode = .transitiveAll) :
      pool.topLevel file <+: pool.select file mode ∧
        ((pool.select file mode).map (·.address)).Nodup := by
    obtain ⟨visited, s, hselected, hfinished⟩ := finished_select hpool file h
    rw [← hselected]
    exact ⟨hfinished.begins, hfinished.distinct⟩
  cases mode with
  | explicit => exact htop
  | allTopLevel => exact htop
  | transitiveRepeated => exact htransitive (Or.inl rfl)
  | transitiveAll => exact htransitive (Or.inr rfl)

theorem map_address_topLevel (h : pool.Regrouped pool') (file : String) :
    (pool'.topLevel file).map (·.address) = (pool.topLevel file).map (·.address) :=
  h.matching.map_address_eq (h.matching.rel_topLevel file)

/-- With groups in the place of message fields nothing more is selected. -/
theorem select_subset {files files' : List FileDecl} (h : pool.Regrouped pool')
    (hpool : pool.Placed files) (hpool' : pool'.Placed files') (file : String)
    (mode : SearchMode) :
    (pool'.select file mode).map (·.address) ⊆ (pool.select file mode).map (·.address) := by
  have htransitive (hmode : mode = .transitiveRepeated ∨ mode = .transitiveAll) :
      (pool'.select file mode).map (·.address) ⊆ (pool.select file mode).map (·.address) := by
    intro address haddress
    obtain ⟨m', hm', rfl⟩ := List.mem_map.1 haddress
    rcases (mem_select_iff hpool' hmode).1 hm' with htop' | ⟨outer', several, hreaches, hholds,
      hwanted⟩
    · obtain ⟨m, htop, hm⟩ := exists_left_of_forall₂ (h.matching.rel_topLevel file) htop'
      rw [hm.address]
      exact List.mem_map_of_mem ((mem_select_iff hpool hmode).2 (Or.inl htop))
    · obtain ⟨outer, houter, hreached⟩ := hreaches.of_regrouped h
      obtain ⟨m, hm, hheld⟩ := hholds.of_regrouped h houter
      rw [hm.address]
      exact List.mem_map_of_mem
        ((mem_select_iff hpool hmode).2 (Or.inr ⟨outer, several, hreached, hheld, hwanted⟩))
  have htop : (pool'.topLevel file).map (·.address) ⊆ (pool.topLevel file).map (·.address) := by
    rw [map_address_topLevel h file]
    exact List.Subset.refl _
  cases mode with
  | explicit => exact htop
  | allTopLevel => exact htop
  | transitiveRepeated => exact htransitive (Or.inl rfl)
  | transitiveAll => exact htransitive (Or.inr rfl)

/-- Files in which message fields have become groups are loaded alike, with the same failure or to
schemas that differ in these fields only. The selections agree in the top level messages, and the
modes that go on from there follow no group: they select what is reached and held over the fields
that are left, nothing that was not selected before, and in the same order all that was if no field
of a message that was reached has lost a message of the file but one of its top level. -/
theorem select_regrouped {files files' : List FileDecl}
    (h : List.Forall₂ FileDecl.Regrouped files files') :
    (load files').1 = (load files).1 ∧
      (∀ failure, (load files).2 = .error failure → (load files').2 = .error failure) ∧
      ∀ pool, (load files).2 = .ok pool → ∃ pool', (load files').2 = .ok pool' ∧
        pool.Regrouped pool' ∧ ∀ file mode,
          pool'.topLevel file <+: pool'.select file mode ∧
          ((pool'.select file mode).map (·.address)).Nodup ∧
          (pool'.select file mode).map (·.address) ⊆ (pool.select file mode).map (·.address) ∧
          (mode = .explicit ∨ mode = .allTopLevel ∨ pool.KeepsAll pool' file →
            (pool'.select file mode).map (·.address) =
              (pool.select file mode).map (·.address)) ∧
          (mode = .transitiveRepeated ∨ mode = .transitiveAll → ∀ m,
            m ∈ pool'.select file mode ↔
              m ∈ pool'.topLevel file ∨ ∃ outer several, pool'.Reaches file outer ∧
                pool'.Holds file outer several m ∧ (several = true ∨ mode = .transitiveAll)) := by
  obtain ⟨hlogs, hloaded⟩ := load_regrouped h
  refine ⟨hlogs, ?_, ?_⟩
  · intro failure hfailed
    rw [hfailed] at hloaded
    generalize (load files').2 = loaded at hloaded
    cases hloaded with
    | error _ => rfl
  · intro pool hpool
    rw [hpool] at hloaded
    generalize hload' : (load files').2 = loaded at hloaded
    cases hloaded with
    | @ok _ pool' hregrouped =>
      have hplaced := placed_load hpool
      have hplaced' := placed_load hload'
      refine ⟨pool', rfl, hregrouped, fun file mode => ?_⟩
      obtain ⟨hbegins, hnodup⟩ := select_begins hplaced' file mode
      refine ⟨hbegins, hnodup, select_subset hregrouped hplaced hplaced' file mode, ?_,
        fun hmode m => mem_select_iff hplaced' hmode⟩
      rintro (rfl | rfl | hkeeps)
      · exact map_address_topLevel hregrouped file
      · exact map_address_topLevel hregrouped file
      · exact map_address_select hregrouped hkeeps mode

/-- A file with a message that holds an inner message and itself, in fields of the given kinds. -/
def groupFile (inner self : FieldKind) : FileDecl :=
  let field (name : String) (number : Int) (kind : FieldKind) (typeName : String) : FieldDecl :=
    { name, number, kind, label := .optional, typeName }
  { name := "a.proto", package := "p", messages :=
      [{ name := "T", fields := [field "g" 1 inner ".p.T.G", field "t" 2 self ".p.T"],
         nested := [{ name := "G" }] }] }

theorem regrouped_groupFile {inner self : FieldKind} (hinner : FieldKind.Regrouped .message inner)
    (hself : FieldKind.Regrouped .message self) :
    List.Forall₂ FileDecl.Regrouped [groupFile .message .message] [groupFile inner self] :=
  .cons ⟨_, .cons (.mk (.cons ⟨_, hinner, rfl⟩ (.cons ⟨_, hself, rfl⟩ .nil))
    (.cons (.mk .nil .nil) .nil)) .nil, rfl⟩ .nil

/-- The inner message is selected if a message field holds it. It is left out if the field is a
group, although the group refers to it as well. The field that holds the outer message may be a
group. -/
theorem select_regrouped_groupFile :
    List.Forall₂ FileDecl.Regrouped [groupFile .message .message] [groupFile .group .message] ∧
      List.Forall₂ FileDecl.Regrouped [groupFile .message .message] [groupFile .message .group] ∧
      ∃ pool inner self, (load [groupFile .message .message]).2 = .ok pool ∧
        (load [groupFile .group .message]).2 = .ok inner ∧
        (load [groupFile .message .group]).2 = .ok self ∧
        (pool.select "a.proto" .transitiveAll).map (·.fullName) = ["p.T", "p.T.G"] ∧
        (inner.select "a.proto" .transitiveAll).map (·.address) ⊆
          (pool.select "a.proto" .transitiveAll).map (·.address) ∧
        (inner.select "a.proto" .transitiveAll).map (·.fullName) = ["p.T"] ∧
        pool.KeepsAll self "a.proto" ∧
        (self.select "a.proto" .transitiveAll).map (·.address) =
          (pool.select "a.proto" .transitiveAll).map (·.address) := by
  have hgroup : FieldKind.Regrouped .message .group := Or.inr ⟨rfl, rfl⟩
  have hmessage : FieldKind.Regrouped .message .message := Or.inl rfl
  have hload : (load [groupFile .message .message]).2 =
      .ok ((load [groupFile .message .message]).2.toOption.getD {}) := by
    decide +kernel
  obtain ⟨-, -, hinner⟩ := select_regrouped (regrouped_groupFile hgroup hmessage)
  obtain ⟨inner, hloadInner, -, hselectInner⟩ := hinner _ hload
  obtain ⟨-, -, hsubset, -⟩ := hselectInner "a.proto" .transitiveAll
  obtain ⟨-, -, hself⟩ := select_regrouped (regrouped_groupFile hmessage hgroup)
  obtain ⟨self, hloadSelf, -, hselectSelf⟩ := hself _ hload
  obtain ⟨-, -, -, hsame, -⟩ := hselectSelf "a.proto" .transitiveAll
  have hinnerEq : inner = (load [groupFile .group .message]).2.toOption.getD {} := by
    rw [hloadInner]
    rfl
  have hselfEq : self = (load [groupFile .message .group]).2.toOption.getD {} := by
    rw [hloadSelf]
    rfl
  have hkeeps : KeepsAll ((load [groupFile .message .message]).2.toOption.getD {}) self
      "a.proto" := by
    rw [hselfEq]
    refine .cons (fun _ => .cons ?_ (.cons ?_ .nil)) (.cons (fun _ => .nil) .nil)
    · decide +kernel
    · decide +kernel
  refine ⟨regrouped_groupFile hgroup hmessage, regrouped_groupFile hmessage hgroup, _, inner, self,
    hload, hloadInner, hloadSelf, by decide +kernel, hsubset, ?_, hkeeps,
    hsame (Or.inr (Or.inr hkeeps))⟩
  rw [hinnerEq]
  decide +kernel

end Pool

end FluentGen.Schema
