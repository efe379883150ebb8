import FluentGen.Proofs.Builder.Recorded
import FluentGen.Proofs.Except
import FluentGen.Proofs.Setter.Guard

/-!
The lines of a builder are those of the methods of the fields it visits. A visit writes the methods
of one option set after the other, and a run writes what its visits write; nothing else leaves a
line but the end, an empty one.
-/

namespace FluentGen.Builder

open Emit (linesOf)
open Schema (Field Message)

/-- The option sets of annotations from a position on, each with whether it is the first annotation.
One whose methods are skipped has none. -/
def annotatedSets (b : Builder) : (index : Nat) → List FieldOptions → List (FieldOptions × Bool)
  | _, [] => []
  | index, given :: rest =>
    let options := b.typeMap.resolveMacro given
    if options.mode = .skip then b.annotatedSets (index + 1) rest
    else (options, decide (index = 0)) :: b.annotatedSets (index + 1) rest

/-- The option sets that the methods of a field are written for: those of its annotations, or the
empty one and that of its automatic type. -/
def optionSets (b : Builder) (field : Field) : List (FieldOptions × Bool) :=
  if field.annotations.isEmpty then
    ({}, true) :: ((b.typeMap.automaticType? (b.pool.cppType field)).map (·, false)).toList
  else b.annotatedSets 0 field.annotations

/-- The methods of a visited field for option sets. -/
def settersFor (b : Builder) (v : Visit) (sets : List (FieldOptions × Bool)) : List Setter :=
  sets.filterMap fun set =>
    (Setter.ofOptions (b.context v.dataParent v.nameParent set.2) v.field set.1).toOption

/-- The methods of a visited field. -/
def methodsOf (b : Builder) (v : Visit) : List Setter :=
  b.settersFor v (b.optionSets v.field)

section Visits

variable {b : Builder} {channel : Channel} {v : Visit}

/-- All methods of option sets have been written, and these are the lines. -/
structure Wrote (b : Builder) (channel : Channel) (v : Visit) (sets : List (FieldOptions × Bool))
    (lines : List String) : Prop where
  written : ∀ s ∈ b.settersFor v sets, s.write.result = .ok ()
  lines : lines = (b.settersFor v sets).flatMap fun s => linesOf channel s.write

theorem Wrote.nil : Wrote b channel v [] [] where
  written := by intro s hs; cases hs
  lines := rfl

/-- The methods of one more option set in front. -/
theorem Wrote.cons {options : FieldOptions} {first : Bool} {sets : List (FieldOptions × Bool)}
    {lines : List String} (h : Wrote b channel v sets lines)
    (hfirst : (b.writeMethod v.field options v.dataParent v.nameParent first).result = .ok ()) :
    Wrote b channel v ((options, first) :: sets)
      (linesOf channel (b.writeMethod v.field options v.dataParent v.nameParent first) ++
        lines) := by
  obtain ⟨s, hs, hwrite, hlines⟩ := Emit.linesOf_bind channel hfirst
  have hsetters : b.settersFor v ((options, first) :: sets) = s :: b.settersFor v sets :=
    List.filterMap_cons_some (congrArg Except.toOption hs)
  constructor
  · intro s' hs'
    rw [hsetters] at hs'
    rcases List.mem_cons.1 hs' with rfl | hs'
    · exact hwrite
    · exact h.written s' hs'
  · rw [hsetters, List.flatMap_cons, writeMethod, hlines, ← h.lines]
    rfl

theorem wrote_writeAnnotated {index : Nat} {expand result : Bool} {annotations : List FieldOptions}
    (h : (b.writeAnnotated v.field v.dataParent v.nameParent index expand annotations).result =
      .ok result) :
    Wrote b channel v (b.annotatedSets index annotations) (linesOf channel
      (b.writeAnnotated v.field v.dataParent v.nameParent index expand annotations)) := by
  induction annotations generalizing index expand with
  | nil => exact .nil
  | cons given rest ih =>
    simp only [writeAnnotated, annotatedSets] at h ⊢
    split at h
    · next hskip =>
      rw [if_pos hskip, if_pos hskip]
      exact ih h
    · next hshown =>
      rw [if_neg hshown, if_neg hshown]
      obtain ⟨allowed, -, hmethods, hlift⟩ := Emit.linesOf_bind channel h
      obtain ⟨_, hfirst, hrest, hlines⟩ := Emit.linesOf_bind channel hmethods
      rw [hlift, hlines, Emit.linesOf_lift, List.nil_append]
      exact (ih hrest).cons hfirst

theorem wrote_writePlain (h : (b.writePlain v.field v.dataParent v.nameParent).result = .ok ()) :
    Wrote b channel v
      (({}, true) :: ((b.typeMap.automaticType? (b.pool.cppType v.field)).map (·, false)).toList)
      (linesOf channel (b.writePlain v.field v.dataParent v.nameParent)) := by
  obtain ⟨_, hfirst, hrest, hlines⟩ := Emit.linesOf_bind channel h
  rw [writePlain, hlines]
  refine Wrote.cons ?_ hfirst
  cases hautomatic : b.typeMap.automaticType? (b.pool.cppType v.field) with
  | none =>
    exact .nil
  | some automatic =>
    simp only [hautomatic] at hrest
    have hnone : Wrote b channel v [] [] := .nil
    have hlast := hnone.cons hrest
    rw [List.append_nil] at hlast
    exact hlast

/-- A visit that ends well has written the methods of its field and nothing else. -/
theorem wrote_writeVisit (channel : Channel) {expand : Bool}
    (h : (b.writeVisit v).result = .ok expand) :
    Wrote b channel v (b.optionSets v.field) (linesOf channel (b.writeVisit v)) := by
  unfold writeVisit writeField at h ⊢
  unfold optionSets
  split at h
  · next hplain =>
    rw [if_pos hplain, if_pos hplain]
    obtain ⟨_, hmethods, -, hlines⟩ := Emit.linesOf_bind channel h
    rw [hlines, Emit.linesOf_pure, List.append_nil]
    exact wrote_writePlain hmethods
  · next hannotated =>
    rw [if_neg hannotated, if_neg hannotated]
    exact wrote_writeAnnotated h

end Visits

/-- If a recorded step ends well, then so have its visits, and its lines are theirs. -/
def Accounted {α : Type} (b : Builder) (channel : Channel) (r : Recorded α) : Prop :=
  ∀ a, r.step.result = .ok a →
    (∀ v ∈ r.visits, ∃ expand, (b.writeVisit v).result = .ok expand) ∧
      linesOf channel r.step = r.visits.flatMap fun v => linesOf channel (b.writeVisit v)

section Runs

variable {b : Builder} {channel : Channel}

theorem accounted_noteVisit (v : Visit) : Accounted b channel (b.noteVisit v) := by
  intro expand h
  constructor
  · intro v' hv'
    rw [List.mem_singleton.1 hv']
    exact ⟨expand, h⟩
  · exact (List.append_nil _).symm

theorem accounted_lift {α : Type} {step : Emit α} (h : linesOf channel step = []) :
    Accounted b channel (liftM step) := by
  intro _ _
  constructor
  · intro v hv
    cases hv
  · exact h

theorem accounted_pure : Accounted b channel (pure ()) := by
  intro _ _
  constructor
  · intro v hv
    cases hv
  · rfl

theorem accounted_bind {α β : Type} {first : Recorded α} {next : α → Recorded β}
    (hfirst : Accounted b channel first) (hnext : ∀ a, Accounted b channel (next a)) :
    Accounted b channel (first >>= next) := by
  intro _ h
  obtain ⟨a, ha, hlast, hvisits⟩ := Recorded.visits_bind h
  obtain ⟨a', ha', -, hlines⟩ := Emit.linesOf_bind channel h
  have hsame : a' = a := Except.ok.inj (ha'.symm.trans ha)
  subst hsame
  obtain ⟨hfirstVisits, hfirstLines⟩ := hfirst a' ha
  obtain ⟨hnextVisits, hnextLines⟩ := hnext a' _ hlast
  constructor
  · intro v hv
    rw [hvisits] at hv
    rcases List.mem_append.1 hv with hv | hv
    · exact hfirstVisits v hv
    · exact hnextVisits v hv
  · rw [hvisits, List.flatMap_append, ← hfirstLines, ← hnextLines]
    exact hlines

theorem accounted_walkInto {enter : Place → Recorded Unit}
    (henter : ∀ place, Accounted b channel (enter place)) (place : Place) (field : Field)
    (expand : Bool) : Accounted b channel (b.walkInto enter place field expand) := by
  unfold walkInto
  split
  · exact accounted_pure
  · exact accounted_bind (accounted_lift (Emit.linesOf_needs _ _ _)) fun _ => henter _

theorem linesOf_needsMapValue (field : Field) : linesOf channel (b.needsMapValue field) = [] := by
  unfold needsMapValue
  split
  · rfl
  · exact Emit.linesOf_needs _ _ _

theorem accounted_walkField {enter : Place → Recorded Unit}
    (henter : ∀ place, Accounted b channel (enter place)) (place : Place) (field : Field) :
    Accounted b channel (b.walkField b.noteVisit enter place field) := by
  unfold walkField
  split
  · exact accounted_pure
  · refine accounted_bind (accounted_noteVisit _) fun expand => ?_
    refine accounted_bind (accounted_walkInto henter place field expand) fun _ => ?_
    exact accounted_lift (linesOf_needsMapValue field)

theorem accounted_walkFields {enter : Place → Recorded Unit}
    (henter : ∀ place, Accounted b channel (enter place)) (place : Place) (fields : List Field) :
    Accounted b channel (b.walkFields b.noteVisit enter place fields) := by
  induction fields with
  | nil => exact accounted_pure
  | cons field rest ih => exact accounted_bind (accounted_walkField henter place field) fun _ => ih

theorem linesOf_needsOfOptions : linesOf channel b.needsOfOptions = [] := by
  have hstays : Emit.StaysIn [] b.needsOfOptions :=
    .bind (.of_silent fun _ => Emit.linesOf_needsAll _ _ _) fun _ =>
      .bind (.of_silent fun _ => Emit.linesOf_needsAll _ _ _) fun _ =>
        .of_silent fun _ => Emit.linesOf_needsAll _ _ _
  exact hstays channel List.not_mem_nil

-- The induction is on the fuel, so that the walk through the fields may assume the walk into a
-- message that one of them holds.
theorem accounted_walkMessage (channel : Channel) (fuel : Nat) (path : List Schema.Address)
    (place : Place) :
    Accounted b channel (b.walkMessage b.noteVisit fuel path place) := by
  induction fuel generalizing path place with
  | zero => exact accounted_pure
  | succ fuel ih =>
    unfold walkMessage
    dsimp only
    split
    · exact accounted_lift (Emit.linesOf_log _ _ _)
    · split
      · exact accounted_lift (Emit.linesOf_log _ _ _)
      · refine accounted_bind (accounted_lift linesOf_needsOfOptions) fun _ => ?_
        exact accounted_walkFields (ih _) place _

/-- The lines of a run are those of its visits, and an empty one. -/
theorem linesOf_recorded (channel : Channel) (h : b.recorded.step.result = .ok ()) :
    (∀ v ∈ b.recorded.visits, ∃ expand, (b.writeVisit v).result = .ok expand) ∧
      linesOf channel b.recorded.step =
        (b.recorded.visits.flatMap fun v => linesOf channel (b.writeVisit v)) ++ [""] := by
  obtain ⟨hwalk, hvisits⟩ := visits_recorded_eq h
  obtain ⟨hall, hmethods⟩ := accounted_walkMessage channel _ _ _ _ hwalk
  obtain ⟨_, -, hwalkAndEnd, hlines⟩ := Emit.linesOf_bind channel h
  obtain ⟨_, -, -, hwalkLines⟩ := Emit.linesOf_bind channel hwalkAndEnd
  have hend : linesOf channel (Emit.each Channel.all fun c => .line c "") = [""] := by
    cases channel with
    | header => rfl
    | source => rfl
    | interface => rfl
  rw [hvisits]
  refine ⟨hall, ?_⟩
  rw [← hmethods, ← hend]
  exact hlines.trans hwalkLines

theorem context_of_mem_methodsOf {v : Visit} {s : Setter} (h : s ∈ b.methodsOf v) :
    ∃ first, s.context = b.context v.dataParent v.nameParent first := by
  obtain ⟨set, -, hs⟩ := List.mem_filterMap.1 h
  cases hsetter : Setter.ofOptions (b.context v.dataParent v.nameParent set.2) v.field set.1 with
  | error failure =>
    rw [hsetter] at hs
    cases hs
  | ok setter =>
    rw [hsetter] at hs
    cases hs
    obtain ⟨_, -, hmade⟩ := exists_of_bind_eq_ok hsetter
    cases hmade
    exact ⟨set.2, rfl⟩

theorem useStatus_of_mem_methodsOf {v : Visit} {s : Setter} (h : s ∈ b.methodsOf v) :
    s.context.useStatus = b.options.useStatus.getD false := by
  obtain ⟨first, hcontext⟩ := context_of_mem_methodsOf h
  rw [hcontext]
  rfl

/-- The methods of a run, in the order in which they are written. -/
def methods (b : Builder) : List Setter :=
  b.recorded.visits.flatMap b.methodsOf

theorem makeInterface_of_mem_methods {s : Setter} (h : s ∈ b.methods) :
    s.context.makeInterface = b.setup.makeInterface := by
  obtain ⟨v, -, hs⟩ := List.mem_flatMap.1 h
  obtain ⟨first, hcontext⟩ := context_of_mem_methodsOf hs
  rw [hcontext]
  rfl

theorem written_of_mem_methods (h : b.write.result = .ok ()) {s : Setter} (hs : s ∈ b.methods) :
    s.write.result = .ok () := by
  rw [← step_recorded] at h
  obtain ⟨v, hv, hs⟩ := List.mem_flatMap.1 hs
  obtain ⟨hvisits, -⟩ := linesOf_recorded .header h
  obtain ⟨expand, hexpand⟩ := hvisits v hv
  exact (wrote_writeVisit .header hexpand).written s hs

/-- The lines of a run are those of its methods, and an empty one. -/
theorem linesOf_methods (channel : Channel) (h : b.write.result = .ok ()) :
    linesOf channel b.write =
      (b.methods.flatMap fun s => linesOf channel s.write) ++ [""] := by
  rw [← step_recorded] at h ⊢
  obtain ⟨hvisits, hlines⟩ := linesOf_recorded channel h
  rw [hlines, methods, List.flatMap_assoc]
  congr 1
  apply List.flatMap_congr
  intro v hv
  obtain ⟨expand, hexpand⟩ := hvisits v hv
  exact (wrote_writeVisit channel hexpand).lines

end Runs

/-- A run that does not fail writes the methods of the fields that it visits. Where one of them with
a predicate is defined, the guard in front of the body records a failed predicate if the message
asks for a status by name, and leaves the value out otherwise, even if the class has a status since
it builds or validates its message. -/
theorem guards_of_write (b : Builder) (h : b.write.result = .ok ()) (channel : Channel) :
    b.recorded.step = b.write ∧
      linesOf channel b.write =
        (b.recorded.visits.flatMap fun v =>
          (b.methodsOf v).flatMap fun s => linesOf channel s.write) ++ [""] ∧
      ∀ v ∈ b.recorded.visits, ∀ s ∈ b.methodsOf v, s.DefinedIn channel →
        (textOf s.raw.predicate).isEmpty = false →
        ∃ predicate, s.predicate = .ok predicate ∧
          linesOf channel s.write =
            "" :: linesOf channel (s.writeTemplateLine channel) ++ [s.signature channel] ++
              (if b.options.useStatus.getD false then Setter.recordingGuard predicate
                else Setter.droppingGuard predicate) ++
              linesOf channel (s.writeBody channel) ++ ["  return *this;", "\x7d", ""] := by
  have hstep := b.step_recorded
  rw [← hstep] at h
  obtain ⟨hvisits, hlines⟩ := linesOf_recorded channel h
  refine ⟨hstep, ?_, ?_⟩
  · rw [← hstep, hlines]
    congr 1
    apply List.flatMap_congr
    intro v hv
    obtain ⟨expand, hexpand⟩ := hvisits v hv
    exact (wrote_writeVisit channel hexpand).lines
  · intro v hv s hs hdefined hgiven
    obtain ⟨expand, hexpand⟩ := hvisits v hv
    have hwritten := (wrote_writeVisit channel hexpand).written s hs
    rw [← useStatus_of_mem_methodsOf hs]
    exact Setter.linesOf_write_of_predicate hdefined hgiven hwritten

/-- The builder of a message with one field, which has a predicate. The class builds the message,
for which it has a status, but the message does not ask for one by name. -/
def checked : Builder :=
  let x : Field :=
    { name := "x", fullName := "A.x", number := 1, kind := .int32, label := .optional
      container := ⟨"a.proto", [0]⟩, typeName := "", target := .scalar, default := none
      annotations := [{ predicate := some "Check(@value@)" }] }
  let a : Message :=
    { address := ⟨"a.proto", [0]⟩, name := "A", fullName := "A", container := none
      enclosing := [], outermost := "A", fields := [x], enums := [], isMapEntry := false
      options := some { useBuild := some true } }
  ofMessage {} { messages := [a] } [] a

/-- The class has a status, and the guard leaves a value out without recording it. -/
theorem guards_of_write_checked :
    checked.options.keepsStatus = true ∧
      linesOf .source checked.write =
        (checked.recorded.visits.flatMap fun v =>
          (checked.methodsOf v).flatMap fun s => linesOf .source s.write) ++ [""] ∧
      linesOf .source checked.write =
        ["", "ABuilder& ABuilder::SetX(int32_t value) \x7b"] ++
          Setter.droppingGuard "Check(value)" ++
          ["  data_.set_x(value);", "  return *this;", "\x7d", "", ""] := by
  have hok : checked.write.result = .ok () := by decide +kernel
  exact ⟨rfl, (guards_of_write checked hok .source).2.1, by decide +kernel⟩

end FluentGen.Builder
