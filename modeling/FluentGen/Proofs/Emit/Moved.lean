import FluentGen.Proofs.Emit.Stacked
import Mathlib.Data.List.Perm.Basic

/-!
Writes to a family of buffers, and moves of a channel's lines from one of them to another. A ledger
keeps every write with the buffer that holds its line. Each buffer holds the lines that the ledger
puts there, each of them once and in its own channel, so nothing is lost as long as no line is moved
to the buffer that it is in.
-/

namespace FluentGen

namespace Desk

/-- What is done with a family of writers. -/
inductive Action where
  | write (writer : Nat) (channel : Channel) (line : String)
  | move (channel : Channel) (source target : Nat)
  deriving DecidableEq

/-- An action on writers of a family of so many. -/
def Action.Within (count : Nat) : Action → Prop
  | .write writer _ _ => writer < count
  | .move _ source target => source < count ∧ target < count

instance (count : Nat) (a : Action) : Decidable (a.Within count) :=
  match a with
  | .write writer _ _ => inferInstanceAs (Decidable (writer < count))
  | .move _ source target => inferInstanceAs (Decidable (source < count ∧ target < count))

/-- The family after an action. -/
def act (desk : Desk) : Action → Desk
  | .write writer channel line => desk.write writer channel line
  | .move channel source target => desk.move channel source target

/-- The family after one action after the other. -/
def actAll (desk : Desk) (actions : List Action) : Desk :=
  actions.foldl act desk

/-- The lines of a channel in the buffer of a writer. -/
def linesIn (desk : Desk) (channel : Channel) (writer : Nat) : List String :=
  ((desk.buffer? writer).map (·.lines.get channel)).getD []

/-- The writers that are these buffers. -/
def ofBuffers (buffers : List Buffer) : Desk :=
  buffers.map .buffer

/-- Buffers without lines, one for each package. -/
def fresh (packages : List (List String)) : Desk :=
  ofBuffers (packages.map fun package => { package })

/-- The writes among actions. -/
def writesOf (actions : List Action) : List (Channel × String) :=
  actions.filterMap fun
    | .write _ channel line => some (channel, line)
    | .move .. => none

/-- A write and the buffer that holds its line, if any does. -/
structure Entry where
  channel : Channel
  line : String
  holder : Option Nat
  deriving DecidableEq

/-- The entry after the lines of a channel are moved. A line that is moved to where it is already
is held by no buffer any more. -/
def Entry.moved (channel : Channel) (source target : Nat) (e : Entry) : Entry :=
  if e.channel = channel ∧ e.holder = some source then
    { e with holder := if source = target then none else some target }
  else e

/-- The ledger after an action. -/
def enter (ledger : List Entry) : Action → List Entry
  | .write writer channel line => ledger ++ [⟨channel, line, some writer⟩]
  | .move channel source target => ledger.map (Entry.moved channel source target)

/-- The writes among actions, each with the buffer that holds its line in the end. -/
def ledgerOf (actions : List Action) : List Entry :=
  actions.foldl enter []

/-- The lines that a ledger puts into a channel of a buffer. -/
def linesHeld (ledger : List Entry) (channel : Channel) (writer : Nat) : List String :=
  (ledger.filter fun e => e.channel = channel ∧ e.holder = some writer).map (·.line)

section Buffers

variable {buffers : List Buffer} {writer source target : Nat}

theorem getElem?_ofBuffers (buffers : List Buffer) (writer : Nat) :
    (ofBuffers buffers)[writer]? = buffers[writer]?.map .buffer :=
  List.getElem?_map

theorem length_ofBuffers (buffers : List Buffer) : (ofBuffers buffers).length = buffers.length :=
  List.length_map _

theorem bufferBelow_ofBuffers (h : writer < buffers.length) :
    bufferBelow (ofBuffers buffers).length (ofBuffers buffers) writer =
      some (writer, buffers[writer]) := by
  obtain ⟨depth, hdepth⟩ := Nat.exists_eq_add_of_lt h
  rw [length_ofBuffers, hdepth, bufferBelow, getElem?_ofBuffers, List.getElem?_eq_getElem h]
  rfl

theorem linesIn_ofBuffers (h : writer < buffers.length) (channel : Channel) :
    (ofBuffers buffers).linesIn channel writer = buffers[writer].lines.get channel := by
  rw [linesIn, buffer?, bufferBelow_ofBuffers h]
  rfl

theorem set_ofBuffers (h : writer < buffers.length) (f : Buffer → Buffer) :
    (ofBuffers buffers).set writer (.buffer (f buffers[writer])) =
      ofBuffers (buffers.modify writer f) := by
  rw [ofBuffers, ← List.map_set, List.modify_eq_set_get f h]
  rfl

theorem write_ofBuffers (h : writer < buffers.length) (channel : Channel) (line : String) :
    (ofBuffers buffers).write writer channel line =
      ofBuffers (buffers.modify writer (·.write channel line)) := by
  obtain ⟨depth, hdepth⟩ := Nat.exists_eq_add_of_lt h
  rw [Desk.write, length_ofBuffers, hdepth, writeDown, getElem?_ofBuffers,
    List.getElem?_eq_getElem h, ← set_ofBuffers h]
  rfl

theorem modifyBuffer_ofBuffers (h : writer < buffers.length) (f : Buffer → Buffer) :
    (ofBuffers buffers).modifyBuffer writer f = ofBuffers (buffers.modify writer f) := by
  rw [modifyBuffer, bufferBelow_ofBuffers h]
  exact set_ofBuffers h f

/-- The target gets the lines behind its own, and then the source is empty, even if it is the
target. -/
theorem move_ofBuffers (hsource : source < buffers.length) (htarget : target < buffers.length)
    (channel : Channel) :
    (ofBuffers buffers).move channel source target =
      ofBuffers ((buffers.modify target
        (·.append channel (buffers[source].lines.get channel))).modify source
          (·.clear channel)) := by
  have hstill : source < (buffers.modify target
      (·.append channel (buffers[source].lines.get channel))).length := by
    rwa [List.length_modify]
  rw [move, buffer?, bufferBelow_ofBuffers hsource]
  dsimp only [Option.map_some]
  rw [modifyBuffer_ofBuffers htarget, modifyBuffer_ofBuffers hstill]

end Buffers

section Ledger

variable {ledger : List Entry} {channel c : Channel} {source target w : Nat}

/-- Items of one of two kinds that exclude each other are those of the first kind and those of the
second. -/
theorem filter_or_perm {α : Type} {p q : α → Bool} (h : ∀ a, ¬ (p a = true ∧ q a = true))
    (items : List α) :
    (items.filter fun a => p a || q a).Perm (items.filter p ++ items.filter q) := by
  have hfirst : (items.filter fun a => p a || q a).filter p = items.filter p := by
    rw [List.filter_filter]
    congr 1
    funext a
    cases p a <;> simp
  have hsecond : (items.filter fun a => p a || q a).filter (fun a => !p a) = items.filter q := by
    rw [List.filter_filter]
    congr 1
    funext a
    have hnot := h a
    cases hp : p a <;> cases hq : q a <;> simp_all
  rw [← hsecond]
  conv_rhs => rw [← hfirst]
  exact (List.filter_append_perm p _).symm

theorem linesHeld_append (ledger : List Entry) (e : Entry) (c : Channel) (w : Nat) :
    linesHeld (ledger ++ [e]) c w =
      linesHeld ledger c w ++ if e.channel = c ∧ e.holder = some w then [e.line] else [] := by
  rw [linesHeld, List.filter_append, List.map_append, ← linesHeld]
  by_cases he : e.channel = c ∧ e.holder = some w
  · rw [if_pos he, List.filter_cons_of_pos (by simpa using he)]
    rfl
  · rw [if_neg he, List.filter_cons_of_neg (by simpa using he)]
    rfl

theorem channel_moved (e : Entry) : (e.moved channel source target).channel = e.channel := by
  unfold Entry.moved
  split <;> rfl

theorem line_moved (e : Entry) : (e.moved channel source target).line = e.line := by
  unfold Entry.moved
  split <;> rfl

theorem holder_moved (e : Entry) :
    (e.moved channel source target).holder =
      if e.channel = channel ∧ e.holder = some source then
        if source = target then none else some target
      else e.holder := by
  unfold Entry.moved
  split <;> rfl

/-- After a move the ledger puts into a buffer the lines whose entries say so then. -/
theorem linesHeld_map_moved (ledger : List Entry) (c : Channel) (w : Nat) :
    linesHeld (ledger.map (Entry.moved channel source target)) c w =
      (ledger.filter fun e =>
        e.channel = c ∧ (e.moved channel source target).holder = some w).map (·.line) := by
  rw [linesHeld, List.filter_map, List.map_map]
  simp only [Function.comp_def, channel_moved, line_moved]

theorem linesHeld_of_other_channel (hc : c ≠ channel) (w : Nat) :
    linesHeld (ledger.map (Entry.moved channel source target)) c w = linesHeld ledger c w := by
  rw [linesHeld_map_moved, linesHeld]
  congr 1
  apply List.filter_congr
  intro e _
  rw [holder_moved]
  grind

theorem linesHeld_of_other_buffer (hsource : w ≠ source) (htarget : w ≠ target) :
    linesHeld (ledger.map (Entry.moved channel source target)) c w = linesHeld ledger c w := by
  rw [linesHeld_map_moved, linesHeld]
  congr 1
  apply List.filter_congr
  intro e _
  rw [holder_moved]
  grind

theorem linesHeld_source :
    linesHeld (ledger.map (Entry.moved channel source target)) channel source = [] := by
  rw [linesHeld_map_moved, List.filter_eq_nil_iff.2, List.map_nil]
  intro e _
  rw [holder_moved]
  grind

theorem linesHeld_target (h : source ≠ target) :
    (linesHeld (ledger.map (Entry.moved channel source target)) channel target).Perm
      (linesHeld ledger channel target ++ linesHeld ledger channel source) := by
  rw [linesHeld_map_moved, linesHeld, linesHeld, ← List.map_append]
  refine List.Perm.map _ (List.Perm.trans (.of_eq ?_) (filter_or_perm ?_ ledger))
  · apply List.filter_congr
    intro e _
    rw [holder_moved]
    grind
  · intro e
    grind

/-- The actions are on record: every line of every write, in order. -/
theorem entries_enter (ledger : List Entry) (a : Action) :
    (enter ledger a).map (fun e => (e.channel, e.line)) =
      ledger.map (fun e => (e.channel, e.line)) ++ writesOf [a] := by
  cases a with
  | write writer channel line => simp [enter, writesOf]
  | move channel source target =>
    simp [enter, writesOf, Function.comp_def, channel_moved, line_moved]

end Ledger

section Step

variable {buffers : List Buffer} {ledger : List Entry}

/-- Buffers that hold what a ledger says. -/
structure Agree (buffers : List Buffer) (ledger : List Entry) : Prop where
  held : ∀ writer (b : Buffer), buffers[writer]? = some b → ∀ channel,
    (b.lines.get channel).Perm (linesHeld ledger channel writer)
  known : ∀ e ∈ ledger, ∀ writer, e.holder = some writer → writer < buffers.length

theorem agree_write (h : Agree buffers ledger) {writer : Nat} (hwriter : writer < buffers.length)
    (channel : Channel) (line : String) :
    Agree (buffers.modify writer (·.write channel line))
      (ledger ++ [⟨channel, line, some writer⟩]) where
  held := by
    intro w b hb c
    rw [List.getElem?_modify, Option.map_eq_map] at hb
    obtain ⟨old, hold, rfl⟩ := Option.map_eq_some_iff.1 hb
    have hheld := h.held w old hold c
    rw [linesHeld_append]
    by_cases hentry : channel = c ∧ some writer = some w
    · obtain ⟨rfl, hsame⟩ := hentry
      rw [if_pos (Option.some.inj hsame), if_pos ⟨rfl, hsame⟩]
      simpa [Buffer.write, PerChannel.modify] using hheld.append_right [line]
    · rw [if_neg hentry, List.append_nil]
      by_cases hsame : writer = w
      · have hc : c ≠ channel := fun hc => hentry ⟨hc.symm, congrArg some hsame⟩
        rw [if_pos hsame, Buffer.write, PerChannel.modify, PerChannel.get_set, if_neg hc]
        exact hheld
      · rw [if_neg hsame]
        exact hheld
  known := by
    intro e he w hw
    rw [List.length_modify]
    rcases List.mem_append.1 he with he | he
    · exact h.known e he w hw
    · rw [List.mem_singleton.1 he] at hw
      exact Option.some.inj hw ▸ hwriter

theorem agree_move (h : Agree buffers ledger) {source target : Nat}
    (hsource : source < buffers.length) (htarget : target < buffers.length) (channel : Channel) :
    Agree ((buffers.modify target (·.append channel (buffers[source].lines.get channel))).modify
      source (·.clear channel)) (ledger.map (Entry.moved channel source target)) where
  held := by
    intro w b hb c
    rw [List.getElem?_modify, List.getElem?_modify, Option.map_eq_map] at hb
    obtain ⟨between, hbetween, rfl⟩ := Option.map_eq_some_iff.1 hb
    obtain ⟨old, hold, rfl⟩ := Option.map_eq_some_iff.1 hbetween
    have hheld := h.held w old hold
    by_cases hc : c = channel
    · subst hc
      by_cases hfrom : source = w
      · subst hfrom
        rw [if_pos rfl, linesHeld_source]
        simp [Buffer.clear]
      · rw [if_neg hfrom]
        by_cases hto : target = w
        · subst hto
          have hmoved := h.held source _ (List.getElem?_eq_getElem hsource) c
          rw [if_pos rfl]
          refine List.Perm.trans ?_ (linesHeld_target hfrom).symm
          simpa [Buffer.append, PerChannel.modify] using (hheld c).append hmoved
        · rw [if_neg hto, linesHeld_of_other_buffer (Ne.symm hfrom) (Ne.symm hto)]
          exact hheld c
    · rw [linesHeld_of_other_channel hc]
      refine List.Perm.trans (.of_eq ?_) (hheld c)
      split <;> split <;> simp [Buffer.clear, Buffer.append, PerChannel.modify, hc]
  known := by
    intro e he w hw
    rw [List.length_modify, List.length_modify]
    obtain ⟨old, hold, rfl⟩ := List.mem_map.1 he
    rw [holder_moved] at hw
    split at hw
    · split at hw
      · cases hw
      · exact Option.some.inj hw ▸ htarget
    · exact h.known old hold w hw

/-- An action on buffers that hold what a ledger says leaves as many that hold what the ledger says
then. -/
theorem agree_act (h : Agree buffers ledger) {a : Action} (ha : a.Within buffers.length) :
    ∃ next, (ofBuffers buffers).act a = ofBuffers next ∧ next.length = buffers.length ∧
      Agree next (enter ledger a) := by
  cases a with
  | write writer channel line =>
    exact ⟨_, write_ofBuffers ha channel line, List.length_modify _ _ _,
      agree_write h ha channel line⟩
  | move channel source target =>
    refine ⟨_, move_ofBuffers ha.1 ha.2 channel, ?_, agree_move h ha.1 ha.2 channel⟩
    rw [List.length_modify, List.length_modify]

theorem agree_actAll (h : Agree buffers ledger) {actions : List Action}
    (hactions : ∀ a ∈ actions, a.Within buffers.length) :
    ∃ next, (ofBuffers buffers).actAll actions = ofBuffers next ∧ next.length = buffers.length ∧
      Agree next (actions.foldl enter ledger) := by
  induction actions generalizing buffers ledger with
  | nil => exact ⟨buffers, rfl, rfl, h⟩
  | cons a rest ih =>
    obtain ⟨ha, hrest⟩ := List.forall_mem_cons.1 hactions
    obtain ⟨between, hact, hlength, hbetween⟩ := agree_act h ha
    obtain ⟨next, hnext, hsame, hagree⟩ := ih hbetween (hlength ▸ hrest)
    refine ⟨next, ?_, hsame.trans hlength, hagree⟩
    rw [actAll, List.foldl_cons, hact]
    exact hnext

end Step

section Run

variable {packages : List (List String)} {actions : List Action}

theorem entries_foldl (actions : List Action) (ledger : List Entry) :
    (actions.foldl enter ledger).map (fun e => (e.channel, e.line)) =
      ledger.map (fun e => (e.channel, e.line)) ++ writesOf actions := by
  induction actions generalizing ledger with
  | nil => exact (List.append_nil _).symm
  | cons a rest ih =>
    have hcut : writesOf (a :: rest) = writesOf [a] ++ writesOf rest :=
      List.filterMap_append (l := [a])
    rw [List.foldl_cons, ih, entries_enter, hcut, List.append_assoc]

/-- The ledger has all writes, in order. -/
theorem entries_ledgerOf (actions : List Action) :
    (ledgerOf actions).map (fun e => (e.channel, e.line)) = writesOf actions :=
  entries_foldl actions []

/-- As long as no lines are moved to where they are, every line stays in a buffer. -/
theorem isSome_holder_foldl (hmoves : ∀ channel writer, Action.move channel writer writer ∉ actions)
    {ledger : List Entry} (h : ∀ e ∈ ledger, e.holder.isSome) :
    ∀ e ∈ actions.foldl enter ledger, e.holder.isSome := by
  induction actions generalizing ledger with
  | nil => exact h
  | cons a rest ih =>
    refine ih (fun c w hmem => hmoves c w (List.mem_cons_of_mem a hmem)) ?_
    intro e he
    cases a with
    | write writer channel line =>
      rcases List.mem_append.1 he with he | he
      · exact h e he
      · rw [List.mem_singleton.1 he]
        rfl
    | move channel source target =>
      have hapart : source ≠ target := by
        rintro rfl
        exact hmoves channel source List.mem_cons_self
      obtain ⟨old, hold, rfl⟩ := List.mem_map.1 he
      rw [holder_moved, if_neg hapart]
      split
      · rfl
      · exact h old hold

/-- The lines that the first buffers hold together. -/
theorem flatMap_linesHeld (ledger : List Entry) (c : Channel) (count : Nat) :
    ((List.range count).flatMap (linesHeld ledger c)).Perm
      ((ledger.filter fun e => e.channel = c && e.holder.any (· < count)).map (·.line)) := by
  induction count with
  | zero =>
    have hnone : (ledger.filter fun e => e.channel = c && e.holder.any (· < 0)) = [] := by
      rw [List.filter_eq_nil_iff]
      intro e _
      cases e.holder <;> simp
    rw [hnone]
    exact .nil
  | succ count ih =>
    have hsplit : (ledger.filter fun e => e.channel = c && e.holder.any (· < count + 1)) =
        ledger.filter fun e => (decide (e.channel = c) && e.holder.any (· < count)) ||
          decide (e.channel = c ∧ e.holder = some count) := by
      apply List.filter_congr
      intro e _
      cases e.holder with
      | none => simp
      | some w =>
        rw [Bool.eq_iff_iff]
        simp only [Option.any_some, Bool.and_eq_true, Bool.or_eq_true, decide_eq_true_eq,
          Option.some.injEq]
        rw [Nat.lt_succ_iff_lt_or_eq, and_or_left]
    rw [List.range_succ, List.flatMap_append, List.flatMap_singleton, hsplit]
    refine List.Perm.trans (ih.append_right _) ?_
    rw [linesHeld, ← List.map_append]
    refine (List.Perm.map _ (filter_or_perm ?_ ledger)).symm
    rintro e ⟨hbelow, hat⟩
    rw [decide_eq_true_eq] at hat
    rw [hat.2] at hbelow
    simp at hbelow

/-- What buffers hold together, if the ledger puts lines only there. -/
theorem flatMap_linesHeld_of_known {ledger : List Entry} {count : Nat}
    (hknown : ∀ e ∈ ledger, ∀ w, e.holder = some w → w < count) (c : Channel) :
    ((List.range count).flatMap (linesHeld ledger c)).Perm
      (((ledger.filter (·.channel = c)).filter (·.holder.isSome)).map (·.line)) := by
  refine (flatMap_linesHeld ledger c count).trans (.of_eq ?_)
  rw [List.filter_filter]
  congr 1
  apply List.filter_congr
  intro e he
  cases hholder : e.holder with
  | none => simp
  | some w => simp [hknown e he w hholder]

theorem linesFor_writesOf (actions : List Action) (c : Channel) :
    linesFor c (writesOf actions) = ((ledgerOf actions).filter (·.channel = c)).map (·.line) := by
  rw [linesFor, ← entries_ledgerOf, List.filter_map, List.map_map]
  rfl

theorem agree_fresh (packages : List (List String)) :
    Agree (packages.map fun package => ({ package } : Buffer)) [] where
  held := by
    intro w b hb c
    rw [List.getElem?_map] at hb
    obtain ⟨package, -, rfl⟩ := Option.map_eq_some_iff.1 hb
    simp [linesHeld]
  known := by
    intro e he
    cases he

/-- After actions the buffers hold what the ledger says. -/
theorem exists_agree_ledgerOf (h : ∀ a ∈ actions, a.Within packages.length) :
    ∃ buffers, (fresh packages).actAll actions = ofBuffers buffers ∧
      buffers.length = packages.length ∧ Agree buffers (ledgerOf actions) := by
  have hlength : (packages.map fun package => ({ package } : Buffer)).length = packages.length :=
    List.length_map _
  obtain ⟨buffers, hbuffers, hsame, hagree⟩ := agree_actAll (agree_fresh packages) (hlength.symm ▸ h)
  exact ⟨buffers, hbuffers, hsame.trans hlength, hagree⟩

theorem holder_lt (h : ∀ a ∈ actions, a.Within packages.length) :
    ∀ e ∈ ledgerOf actions, ∀ w, e.holder = some w → w < packages.length := by
  obtain ⟨_, -, hcount, hagree⟩ := exists_agree_ledgerOf h
  exact hcount ▸ hagree.known

theorem linesIn_perm (h : ∀ a ∈ actions, a.Within packages.length) (channel : Channel) {w : Nat}
    (hw : w < packages.length) :
    (((fresh packages).actAll actions).linesIn channel w).Perm
      (linesHeld (ledgerOf actions) channel w) := by
  obtain ⟨buffers, hbuffers, hcount, hagree⟩ := exists_agree_ledgerOf h
  have hbuffer : w < buffers.length := hcount ▸ hw
  rw [hbuffers, linesIn_ofBuffers hbuffer]
  exact hagree.held w _ (List.getElem?_eq_getElem hbuffer) channel

/-- What is held of a channel is all that was written to it exactly if no entry of it has lost its
holder. -/
theorem held_perm_written_iff (actions : List Action) (channel : Channel) :
    ((((ledgerOf actions).filter (·.channel = channel)).filter (·.holder.isSome)).map (·.line)).Perm
        (linesFor channel (writesOf actions)) ↔
      ∀ e ∈ ledgerOf actions, e.channel = channel → e.holder.isSome := by
  have hmem : (∀ e ∈ ledgerOf actions, e.channel = channel → e.holder.isSome) ↔
      ∀ e ∈ (ledgerOf actions).filter (·.channel = channel), e.holder.isSome := by
    simp [List.mem_filter]
  rw [linesFor_writesOf, hmem]
  constructor
  · intro hperm
    have hcounts := hperm.length_eq
    rw [List.length_map, List.length_map] at hcounts
    exact List.length_filter_eq_length_iff.1 hcounts
  · intro hkept
    rw [List.filter_eq_self.2 hkept]

/-- After any writes to buffers and moves between them, the ledger has every write, and a buffer
holds in each channel the lines that the ledger puts there, each as often as there. As long as no
lines are moved to the buffer that they are in, every write is held by a buffer. The lines of a
channel in all buffers together are those that were written to it exactly if no write to it was
lost in that way. -/
theorem lines_of_moves (h : ∀ a ∈ actions, a.Within packages.length) :
    let desk := (fresh packages).actAll actions
    let ledger := ledgerOf actions
    ledger.map (fun e => (e.channel, e.line)) = writesOf actions ∧
      (∀ e ∈ ledger, ∀ writer, e.holder = some writer → writer < packages.length) ∧
      (∀ channel, ∀ writer < packages.length,
        (desk.linesIn channel writer).Perm (linesHeld ledger channel writer)) ∧
      ((∀ channel writer, Action.move channel writer writer ∉ actions) →
        ∀ e ∈ ledger, e.holder.isSome) ∧
      ∀ channel,
        (((List.range packages.length).flatMap (desk.linesIn channel)).Perm
            (linesFor channel (writesOf actions)) ↔
          ∀ e ∈ ledger, e.channel = channel → e.holder.isSome) := by
  intro desk ledger
  refine ⟨entries_ledgerOf actions, holder_lt h, fun channel w hw => linesIn_perm h channel hw,
    fun hmoves => isSome_holder_foldl hmoves (by simp), ?_⟩
  intro channel
  have htogether : ((List.range packages.length).flatMap (desk.linesIn channel)).Perm
      ((List.range packages.length).flatMap (linesHeld ledger channel)) :=
    List.Perm.flatMap_left _ fun w hw => linesIn_perm h channel (List.mem_range.1 hw)
  have hall := htogether.trans (flatMap_linesHeld_of_known (holder_lt h) channel)
  exact (hall.congr_left _).trans (held_perm_written_iff actions channel)

/-- Lines that go around three buffers, and a line of another channel that is moved to where it
is. -/
theorem lines_of_moves_around :
    let actions : List Action := [.write 0 .header "a", .write 1 .header "b", .write 0 .source "c",
      .move .header 0 1, .move .header 1 2, .write 2 .header "a", .move .header 2 0,
      .move .source 0 0]
    let desk := (fresh [[], ["p"], []]).actAll actions
    (∀ a ∈ actions, a.Within 3) ∧
      (desk.linesIn .header 0).Perm ["a", "b", "a"] ∧
      ((List.range 3).flatMap (desk.linesIn .header)).Perm ["a", "b", "a"] ∧
      ¬ ((List.range 3).flatMap (desk.linesIn .source)).Perm ["c"] := by
  intro actions desk
  have hwithin : ∀ a ∈ actions, a.Within 3 := by decide
  have hlength : ([[], ["p"], []] : List (List String)).length = 3 := rfl
  obtain ⟨-, -, hheld, -, hall⟩ := lines_of_moves (hlength ▸ hwithin)
  refine ⟨hwithin, hheld .header 0 (by decide), (hall .header).2 (by decide), ?_⟩
  intro hperm
  exact absurd ((hall .source).1 hperm) (by decide)

end Run

end Desk

end FluentGen
