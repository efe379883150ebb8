import FluentGen.Proofs.Schema.Addresses
import FluentGen.Proofs.Schema.Holds
import Mathlib.Data.List.Perm.Subperm

/-!
Selecting messages computes a closure. The transitive modes add to the top level messages what these
reach, all of it or what repeated fields hold.

The messages that have been visited and those in the queue are together the ones that were ever
queued, each of them once. When the queue is empty, everything that a visited message holds has been
queued, so the visited messages are those that are reached.
-/

namespace FluentGen.Schema

namespace Search

/-- The search before the first visit. -/
def start (pool : Pool) (file : String) : Search :=
  let top := pool.topLevel file
  ⟨top, top.map (·.address), top⟩

/-- Puts a message into the queue unless it has been there. -/
def enqueue (s : Search) (m : Message) : Search :=
  if s.queued.contains m.address then s
  else { s with queued := m.address :: s.queued, queue := s.queue ++ [m] }

/-- Selects a message if it is wanted. -/
def choose (s : Search) (wanted : Bool) (m : Message) : Search :=
  if wanted then { s with selected := s.selected ++ [m] } else s

section Steps

variable {pool : Pool} {files : List FileDecl} {file : String} {all : Bool}
  {visited : List Message} {s : Search}

theorem lookAt_eq (pool : Pool) (file : String) (all : Bool) (s : Search) (f : Field) :
    lookAt pool file all s f =
      match pool.elementMessage? f with
      | none => s
      | some (m, several) =>
        if s.selected.any (·.address == m.address) || m.address.file != file then s
        else (s.enqueue m).choose (several || all) m := by
  unfold lookAt
  cases pool.elementMessage? f with
  | none => rfl
  | some element =>
    obtain ⟨m, several⟩ := element
    simp only [enqueue, choose]
    split
    · rfl
    · cases several || all with
      | true =>
        split
        · rfl
        · rfl
      | false =>
        split
        · rfl
        · rfl

/-- What holds between two visits: `visited` are the messages that have left the queue. -/
structure Invariant (pool : Pool) (file : String) (all : Bool) (visited : List Message)
    (s : Search) : Prop where
  queued : s.queued.Perm ((visited ++ s.queue).map (·.address))
  nodup : s.queued.Nodup
  known : ∀ m ∈ visited ++ s.queue, m ∈ pool.messages
  reached : ∀ m ∈ visited ++ s.queue, pool.Reaches file m
  begins : pool.topLevel file <+: s.selected
  distinct : (s.selected.map (·.address)).Nodup
  selected : ∀ m ∈ s.selected, m ∈ visited ++ s.queue
  chosen : ∀ m ∈ s.selected, m ∈ pool.topLevel file ∨
    ∃ outer several, pool.Reaches file outer ∧ pool.Holds file outer several m ∧
      (several || all) = true

theorem invariant_start (hpool : pool.Placed files) (file : String) (all : Bool) :
    Invariant pool file all [] (start pool file) where
  queued := .refl _
  nodup := hpool.nodup.sublist (List.filter_sublist.map _)
  known := fun _ hm => (List.mem_filter.1 hm).1
  reached := fun _ hm => Pool.reaches_of_mem_topLevel hm
  begins := List.prefix_rfl
  distinct := hpool.nodup.sublist (List.filter_sublist.map _)
  selected := fun _ hm => hm
  chosen := fun _ hm => Or.inl hm

namespace Invariant

/-- A message of the schema whose address was queued has been visited or waits. -/
theorem mem_of_queued (hpool : pool.Placed files) (h : Invariant pool file all visited s)
    {m : Message} (hm : m ∈ pool.messages) (hqueued : m.address ∈ s.queued) :
    m ∈ visited ++ s.queue := by
  obtain ⟨m', hm', heq⟩ := List.mem_map.1 (h.queued.mem_iff.1 hqueued)
  have hsame : m' = m := hpool.eq_of_address_eq (h.known m' hm') hm heq
  exact hsame ▸ hm'

theorem length_le (h : Invariant pool file all visited s) :
    visited.length + s.queue.length ≤ pool.messages.length := by
  have hnodup : ((visited ++ s.queue).map (·.address)).Nodup := h.queued.nodup_iff.1 h.nodup
  have hsubset : (visited ++ s.queue).map (·.address) ⊆ pool.messages.map (·.address) :=
    List.map_subset _ fun m hm => h.known m hm
  have hlength := (hnodup.subperm hsubset).length_le
  simpa using hlength

theorem enqueue (h : Invariant pool file all visited s) {m : Message} (hm : m ∈ pool.messages)
    (hreached : pool.Reaches file m) : Invariant pool file all visited (s.enqueue m) := by
  unfold Search.enqueue
  split
  · exact h
  · next hfresh =>
    have hmem : ∀ x ∈ visited ++ (s.queue ++ [m]), x ∈ visited ++ s.queue ∨ x = m := by
      intro x hx
      rw [← List.append_assoc] at hx
      rcases List.mem_append.1 hx with hx | hx
      · exact Or.inl hx
      · exact Or.inr (List.mem_singleton.1 hx)
    constructor
    · rw [← List.append_assoc, List.map_append]
      exact (h.queued.cons m.address).trans (List.perm_append_singleton _ _).symm
    · exact List.nodup_cons.2 ⟨by simpa using hfresh, h.nodup⟩
    · intro x hx
      rcases hmem x hx with hx | rfl
      · exact h.known x hx
      · exact hm
    · intro x hx
      rcases hmem x hx with hx | rfl
      · exact h.reached x hx
      · exact hreached
    · exact h.begins
    · exact h.distinct
    · intro x hx
      rw [← List.append_assoc]
      exact List.mem_append_left _ (h.selected x hx)
    · exact h.chosen

theorem choose (h : Invariant pool file all visited s) {m : Message} {wanted : Bool}
    (hm : m ∈ visited ++ s.queue) (hfresh : m.address ∉ s.selected.map (·.address))
    (hheld : wanted = true → ∃ outer several, pool.Reaches file outer ∧
      pool.Holds file outer several m ∧ (several || all) = true) :
    Invariant pool file all visited (s.choose wanted m) := by
  unfold Search.choose
  split
  · next hwanted =>
    constructor
    · exact h.queued
    · exact h.nodup
    · exact h.known
    · exact h.reached
    · exact h.begins.trans (List.prefix_append _ _)
    · rw [List.map_append]
      refine List.nodup_append.2 ⟨h.distinct, List.nodup_singleton _, ?_⟩
      intro a ha b hb hab
      have hb : b = m.address := List.mem_singleton.1 hb
      rw [hab, hb] at ha
      exact hfresh ha
    · intro x hx
      rcases List.mem_append.1 hx with hx | hx
      · exact h.selected x hx
      · exact List.mem_singleton.1 hx ▸ hm
    · intro x hx
      rcases List.mem_append.1 hx with hx | hx
      · exact h.chosen x hx
      · rw [List.mem_singleton.1 hx]
        exact Or.inr (hheld hwanted)
  · exact h

/-- The first message of the queue is visited. -/
theorem dequeue {m : Message} {queue : List Message} (h : Invariant pool file all visited s)
    (hqueue : s.queue = m :: queue) :
    Invariant pool file all (visited ++ [m]) { s with queue } := by
  have hsplit : visited ++ s.queue = (visited ++ [m]) ++ queue := by
    rw [hqueue, List.append_assoc, List.singleton_append]
  obtain ⟨queued, nodup, known, reached, begins, distinct, selected, chosen⟩ := h
  rw [hsplit] at queued known reached selected
  exact ⟨queued, nodup, known, reached, begins, distinct, selected, chosen⟩

end Invariant

/-- What a field holds has been queued, and selected if it is wanted. -/
def Covers (pool : Pool) (file : String) (all : Bool) (s : Search) (f : Field) : Prop :=
  ∀ inner several, pool.elementMessage? f = some (inner, several) → inner.address.file = file →
    inner.address ∈ s.queued ∧ ((several || all) = true → inner ∈ s.selected)

/-- A search goes on from another: nothing that was queued or selected is lost. -/
structure Extends (s t : Search) : Prop where
  queued : s.queued ⊆ t.queued
  selected : s.selected ⊆ t.selected

theorem Extends.trans {s t u : Search} (h : Extends s t) (h' : Extends t u) : Extends s u :=
  ⟨List.Subset.trans h.queued h'.queued, List.Subset.trans h.selected h'.selected⟩

theorem Covers.mono {t : Search} {f : Field} (h : Covers pool file all s f) (hext : Extends s t) :
    Covers pool file all t f := by
  intro inner several helement hfile
  obtain ⟨hqueued, hselected⟩ := h inner several helement hfile
  exact ⟨hext.queued hqueued, fun hwanted => hext.selected (hselected hwanted)⟩

theorem extends_enqueue (s : Search) (m : Message) : Extends s (s.enqueue m) := by
  unfold enqueue
  split
  · exact ⟨List.Subset.refl _, List.Subset.refl _⟩
  · exact ⟨List.subset_cons_self _ _, List.Subset.refl _⟩

theorem extends_choose (s : Search) (wanted : Bool) (m : Message) :
    Extends s (s.choose wanted m) := by
  unfold choose
  split
  · exact ⟨List.Subset.refl _, List.subset_append_left _ _⟩
  · exact ⟨List.Subset.refl _, List.Subset.refl _⟩

theorem mem_queued_enqueue (s : Search) (m : Message) : m.address ∈ (s.enqueue m).queued := by
  unfold enqueue
  split
  · next hold => simpa using hold
  · exact List.mem_cons_self

@[simp] theorem selected_enqueue (s : Search) (m : Message) :
    (s.enqueue m).selected = s.selected := by
  unfold enqueue
  split
  · rfl
  · rfl

@[simp] theorem queued_choose (s : Search) (wanted : Bool) (m : Message) :
    (s.choose wanted m).queued = s.queued := by
  unfold choose
  split
  · rfl
  · rfl

/-- What one field of a visited message adds. -/
theorem Invariant.lookAt (hpool : pool.Placed files) (h : Invariant pool file all visited s)
    {m : Message} (hm : m ∈ visited) {f : Field} (hf : f ∈ m.fields) :
    Invariant pool file all visited (lookAt pool file all s f) ∧
      Extends s (lookAt pool file all s f) ∧ Covers pool file all (lookAt pool file all s f) f := by
  have hsame : Extends s s := ⟨List.Subset.refl _, List.Subset.refl _⟩
  rw [lookAt_eq]
  -- The cases are those of the step: nothing is held, it is skipped, or it is queued and selected.
  cases helement : pool.elementMessage? f with
  | none =>
    refine ⟨h, hsame, ?_⟩
    intro inner several hsome
    rw [helement] at hsome
    cases hsome
  | some element =>
    obtain ⟨inner, several⟩ := element
    have honly : ∀ {t : Search}, (inner.address.file = file → inner.address ∈ t.queued ∧
        ((several || all) = true → inner ∈ t.selected)) → Covers pool file all t f := by
      intro t ht x more hsome hfile
      rw [helement] at hsome
      cases hsome
      exact ht hfile
    have hinner : inner.address.file = file → pool.Holds file m several inner := by
      intro hfile
      exact Pool.holds_iff.2 ⟨hfile, f, hf, helement⟩
    dsimp only
    split
    · next hskip =>
      -- A message of the file is skipped only if it is selected, and so it has been queued before.
      refine ⟨h, hsame, honly ?_⟩
      intro hfile
      have hselected : ∃ x ∈ s.selected, x.address = inner.address := by
        simpa [hfile] using hskip
      obtain ⟨x, hx, heq⟩ := hselected
      have hqueued := h.selected x hx
      have hxinner : x = inner :=
        hpool.eq_of_address_eq (h.known x hqueued) (hinner hfile).mem_messages heq
      rw [hxinner] at hx hqueued
      exact ⟨h.queued.mem_iff.2 (List.mem_map_of_mem hqueued), fun _ => hx⟩
    · next hnew =>
      have hfile : inner.address.file = file := by
        by_contra hother
        exact hnew (by simp [hother])
      have hfresh : inner.address ∉ (s.enqueue inner).selected.map (·.address) := by
        intro hmem
        rw [selected_enqueue] at hmem
        obtain ⟨x, hx, heq⟩ := List.mem_map.1 hmem
        apply hnew
        rw [Bool.or_eq_true, List.any_eq_true]
        exact Or.inl ⟨x, hx, by simpa using heq⟩
      have houter : pool.Reaches file m := h.reached m (List.mem_append_left _ hm)
      have hholds := hinner hfile
      have hqueue := h.enqueue hholds.mem_messages (houter.step hholds)
      have hmem := hqueue.mem_of_queued hpool hholds.mem_messages (mem_queued_enqueue s inner)
      refine ⟨?_, ?_, honly ?_⟩
      · apply hqueue.choose hmem hfresh
        intro hwanted
        exact ⟨m, several, houter, hholds, hwanted⟩
      · exact (extends_enqueue s inner).trans (extends_choose _ _ _)
      · intro _
        refine ⟨?_, ?_⟩
        · rw [queued_choose]
          exact mem_queued_enqueue s inner
        · intro hwanted
          rw [hwanted]
          exact List.mem_append_right _ (List.mem_singleton_self inner)

/-- What some fields of a visited message add. -/
theorem Invariant.lookAtAll (hpool : pool.Placed files) {m : Message} (hm : m ∈ visited)
    {fields : List Field} (hfields : fields ⊆ m.fields) (h : Invariant pool file all visited s) :
    Invariant pool file all visited (fields.foldl (Search.lookAt pool file all) s) ∧
      Extends s (fields.foldl (Search.lookAt pool file all) s) ∧
      ∀ f ∈ fields, Covers pool file all (fields.foldl (Search.lookAt pool file all) s) f := by
  induction fields generalizing s with
  | nil =>
    refine ⟨h, ⟨List.Subset.refl _, List.Subset.refl _⟩, ?_⟩
    intro f hf
    cases hf
  | cons f rest ih =>
    obtain ⟨hf, hrest⟩ := List.cons_subset.1 hfields
    obtain ⟨hfirst, hext, hcovers⟩ := h.lookAt hpool hm hf
    obtain ⟨hlast, hmore, hothers⟩ := ih hrest hfirst
    refine ⟨hlast, hext.trans hmore, ?_⟩
    intro f' hf'
    rcases List.mem_cons.1 hf' with rfl | hf'
    · exact hcovers.mono hmore
    · exact hothers f' hf'

/-- A search that has come to its end: nothing waits, and all fields of the visited messages have
been looked at. -/
structure Finished (pool : Pool) (file : String) (all : Bool) (visited : List Message)
    (s : Search) : Prop extends Invariant pool file all visited s where
  queue : s.queue = []
  covers : ∀ m ∈ visited, ∀ f ∈ m.fields, Covers pool file all s f

/-- No message is queued twice, so as many visits as there are messages empty the queue. -/
theorem finished_visit (hpool : pool.Placed files) (visits : Nat)
    (h : Invariant pool file all visited s)
    (hcovers : ∀ m ∈ visited, ∀ f ∈ m.fields, Covers pool file all s f)
    (hvisits : pool.messages.length ≤ visited.length + visits) :
    ∃ visited, Finished pool file all visited (visit pool file all visits s) := by
  -- `visited` and `visits` together stay as large as the schema, so when the visits are used up
  -- there is no address left to wait in the queue.
  induction visits generalizing visited s with
  | zero =>
    have hlength := h.length_le
    have hqueue : s.queue.length = 0 := by omega
    exact ⟨visited, h, List.eq_nil_of_length_eq_zero hqueue, hcovers⟩
  | succ visits ih =>
    rw [visit]
    split
    · next hqueue => exact ⟨visited, h, hqueue, hcovers⟩
    · next m queue hqueue =>
      have hm : m ∈ visited ++ [m] := List.mem_append_right _ (List.mem_singleton_self m)
      obtain ⟨hnext, hext, hfields⟩ :=
        (h.dequeue hqueue).lookAtAll hpool hm (List.Subset.refl m.fields)
      refine ih hnext ?_ ?_
      · intro x hx f hf
        rcases List.mem_append.1 hx with hx | hx
        · have hbefore : Covers pool file all { s with queue } f := hcovers x hx f hf
          exact hbefore.mono hext
        · rw [List.mem_singleton.1 hx] at hf
          exact hfields f hf
      · rw [List.length_append, List.length_singleton]
        omega

theorem visit_of_queue_eq_nil (visits : Nat) (h : s.queue = []) :
    visit pool file all visits s = s := by
  cases visits with
  | zero => rfl
  | succ visits =>
    rw [visit]
    split
    · rfl
    · next hqueue =>
      rw [h] at hqueue
      cases hqueue

theorem visit_add (first more : Nat) (s : Search) :
    visit pool file all (first + more) s =
      visit pool file all more (visit pool file all first s) := by
  induction first generalizing s with
  | zero => rw [Nat.zero_add, visit]
  | succ first ih =>
    rw [Nat.succ_add, visit, visit]
    split
    · next hqueue => rw [visit_of_queue_eq_nil more hqueue]
    · rw [ih]

namespace Finished

theorem mem_visited_iff (hpool : pool.Placed files) (h : Finished pool file all visited s)
    {m : Message} : m ∈ visited ↔ pool.Reaches file m := by
  constructor
  · intro hm
    exact h.reached m (List.mem_append_left _ hm)
  · rintro ⟨top, htop, hsteps⟩
    induction hsteps with
    | refl =>
      have hselected := h.selected top (h.begins.subset htop)
      rwa [h.queue, List.append_nil] at hselected
    | tail _ hlast ih =>
      obtain ⟨several, hholds⟩ := hlast
      obtain ⟨hfile, f, hf, helement⟩ := Pool.holds_iff.1 hholds
      obtain ⟨hqueued, -⟩ := h.covers _ ih f hf _ several helement hfile
      have hmem := h.mem_of_queued hpool hholds.mem_messages hqueued
      rwa [h.queue, List.append_nil] at hmem

/-- The search selects the top level messages and what messages that are reached hold, several
times or at all. -/
theorem mem_selected_iff (hpool : pool.Placed files) (h : Finished pool file all visited s)
    {m : Message} :
    m ∈ s.selected ↔
      m ∈ pool.topLevel file ∨
        ∃ outer several, pool.Reaches file outer ∧ pool.Holds file outer several m ∧
          (several || all) = true := by
  constructor
  · exact h.chosen m
  · rintro (htop | ⟨outer, several, houter, hholds, hwanted⟩)
    · exact h.begins.subset htop
    · obtain ⟨hfile, f, hf, helement⟩ := Pool.holds_iff.1 hholds
      have hvisited := (h.mem_visited_iff hpool).2 houter
      obtain ⟨-, hselected⟩ := h.covers outer hvisited f hf m several helement hfile
      exact hselected hwanted

end Finished

/-- Any number of visits that is not smaller than that of the messages finishes the search, always
with the same result. -/
theorem finished_start (hpool : pool.Placed files) (file : String) (all : Bool) {visits : Nat}
    (hvisits : pool.messages.length ≤ visits) :
    ∃ visited, Finished pool file all visited (visit pool file all visits (start pool file)) := by
  refine finished_visit hpool visits (invariant_start hpool file all) ?_ (by simpa using hvisits)
  intro m hm
  cases hm

theorem visit_start_eq (hpool : pool.Placed files) (file : String) (all : Bool) {visits : Nat}
    (hvisits : pool.messages.length ≤ visits) :
    visit pool file all visits (start pool file) =
      visit pool file all pool.messages.length (start pool file) := by
  obtain ⟨visited, hfinished⟩ := finished_start hpool file all (Nat.le_refl pool.messages.length)
  obtain ⟨more, rfl⟩ := Nat.exists_eq_add_of_le hvisits
  rw [visit_add, visit_of_queue_eq_nil more hfinished.queue]

end Steps

end Search

namespace Pool

/-- The transitive modes select the top level messages, as the file declares them, and others behind
them, no message twice. All messages that are reached are selected, or only those that a message
which is reached holds several times. The schema may be cyclic: as many visits as it has messages
leave none to visit, and more visits change nothing. -/
theorem select_closure {files : List FileDecl} {pool : Pool} (hload : (load files).2 = .ok pool)
    (file : String) :
    (pool.topLevel file).map (fun m => (m.name, m.address)) =
        (declaredIn files file).zipIdx.map (fun d => (d.1.name, ⟨file, [d.2]⟩)) ∧
      (∀ mode, mode = .transitiveRepeated ∨ mode = .transitiveAll →
        (∃ others, pool.select file mode = pool.topLevel file ++ others) ∧
        ((pool.select file mode).map (·.address)).Nodup ∧
        ∀ visits, pool.messages.length ≤ visits →
          let s := Search.visit pool file (mode == .transitiveAll) visits (.start pool file)
          s.queue = [] ∧ s.selected = pool.select file mode) ∧
      (∀ m, m ∈ pool.select file .transitiveAll ↔
        m ∈ pool.topLevel file ∨ pool.Reaches file m) ∧
      ∀ m, m ∈ pool.select file .transitiveRepeated ↔
        m ∈ pool.topLevel file ∨
          ∃ outer, pool.Reaches file outer ∧ pool.Holds file outer true m := by
  have hpool := placed_load hload
  have hfinished := fun all =>
    Search.finished_start hpool file all (Nat.le_succ pool.messages.length)
  refine ⟨hpool.topLevel file, ?_, ?_, ?_⟩
  · intro mode hmode
    have hselect : pool.select file mode = (Search.visit pool file (mode == .transitiveAll)
        (pool.messages.length + 1) (.start pool file)).selected := by
      rcases hmode with rfl | rfl
      · rfl
      · rfl
    obtain ⟨visited, h⟩ := hfinished (mode == .transitiveAll)
    obtain ⟨others, hothers⟩ := h.begins
    rw [hselect]
    refine ⟨⟨others, hothers.symm⟩, h.distinct, ?_⟩
    intro visits hvisits
    have hsame := Search.visit_start_eq hpool file (mode == .transitiveAll) hvisits
    have hlast := Search.visit_start_eq hpool file (mode == .transitiveAll)
      (Nat.le_succ pool.messages.length)
    rw [hsame, ← hlast]
    exact ⟨h.queue, rfl⟩
  · intro m
    obtain ⟨visited, h⟩ := hfinished true
    have hselected := h.mem_selected_iff hpool (m := m)
    simp only [Bool.or_true, and_true] at hselected
    rw [reaches_iff, or_self_left]
    exact hselected
  · intro m
    obtain ⟨visited, h⟩ := hfinished false
    have hselected := h.mem_selected_iff hpool (m := m)
    simp only [Bool.or_false, exists_and_left, exists_eq_right] at hselected
    exact hselected

/-- A file with a message that holds one of its two inner messages, which holds messages of its own
kind, and the other one only as a single value. -/
def treeFile : FileDecl :=
  let field (name : String) (label : Label) (typeName : String) : FieldDecl :=
    { name, number := 1, kind := .message, label, typeName }
  let node : MessageDecl :=
    { name := "Node",
      fields := [field "next" .optional "T.Node", field "below" .repeated "T.Node"] }
  { name := "tree", messages :=
      [{ name := "T", fields := [field "root" .optional "T.Node", field "leaf" .optional "T.Leaf"],
         nested := [node, { name := "Leaf" }] }] }

/-- The inner message that is held several times, by itself, is first met as a single value. -/
theorem select_closure_treeFile :
    ∃ pool, (load [treeFile]).2 = .ok pool ∧
      (∀ m, m ∈ pool.select "tree" .transitiveRepeated ↔
        m ∈ pool.topLevel "tree" ∨
          ∃ outer, pool.Reaches "tree" outer ∧ pool.Holds "tree" outer true m) ∧
      (pool.select "tree" .transitiveRepeated).map (·.fullName) = ["T", "T.Node"] ∧
      (pool.select "tree" .transitiveAll).map (·.fullName) = ["T", "T.Node", "T.Leaf"] := by
  have hload : (load [treeFile]).2 = .ok ((load [treeFile]).2.toOption.getD {}) := by
    decide +kernel
  have hrepeated := (select_closure hload "tree").2.2.2
  exact ⟨_, hload, hrepeated, by decide +kernel, by decide +kernel⟩

end Pool

end FluentGen.Schema
