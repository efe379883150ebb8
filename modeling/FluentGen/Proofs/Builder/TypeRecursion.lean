import FluentGen.Proofs.Builder.FieldDepth
import FluentGen.Proofs.Builder.Methods

/-!
What the entry of a type says about the expansion of fields of that type. An annotation that is
silent about it asks the entry of its type; a field without annotations asks no entry at all. So an
entry that forbids the expansion is obeyed behind every annotated field, however deep it is, and at
the other fields it plays no part.
-/

namespace FluentGen.Builder

open Emit (linesOf)
open Schema (Field Message)

/-- The entry for the type of a field says that it shall not be expanded. -/
def TypeForbids (b : Builder) (field : Field) : Prop :=
  ∃ entry, b.typeMap.get? (b.pool.cppType field) = some entry ∧ entry.recurse = some false

/-- The annotations of a field, if there are any, leave it to the type of the field whether it is
expanded. -/
def LeavesToType (field : Field) : Prop :=
  ∀ given ∈ field.annotations, given.type = none ∧ given.macroKey = none ∧ given.recurse = none

section Visits

variable {b : Builder} {v : Visit}

theorem resolveMacro_of_none {map : TypeMap} {o : FieldOptions} (h : o.macroKey = none) :
    map.resolveMacro o = o := by
  unfold TypeMap.resolveMacro
  rw [h]
  rfl

theorem allowsExpansion_of_forbids {field : Field} {options : FieldOptions} {allowed : Bool}
    (htype : options.type = none) (hrecurse : options.recurse = none) (hforbids : b.TypeForbids field)
    (h : b.allowsExpansion field options = .ok allowed) : allowed = false := by
  obtain ⟨entry, hentry, hforbidden⟩ := hforbids
  unfold allowsExpansion at h
  rw [hrecurse] at h
  obtain ⟨info, hinfo, hallowed⟩ := exists_of_bind_eq_ok h
  have hfound : info = some entry := by
    unfold TypeMap.typeInfo Schema.Pool.optionsKey at hinfo
    rw [htype] at hinfo
    split at hinfo
    · cases hinfo
    · exact (Except.ok.inj hinfo).symm.trans hentry
  rw [hfound] at hallowed
  rw [← Except.ok.inj hallowed, Option.bind_some, hforbidden]
  rfl

/-- Where the type forbids the expansion, only a field without annotations is expanded. -/
theorem annotations_of_expanded (hshown : v.field.firstOptions.mode ≠ .skip)
    (hleaves : LeavesToType v.field) (hforbids : b.TypeForbids v.field)
    (h : (b.writeVisit v).result = .ok true) : v.field.annotations = [] := by
  cases hannotations : v.field.annotations with
  | nil => rfl
  | cons given rest =>
    obtain ⟨htype, hmacro, hrecurse⟩ := hleaves given (hannotations ▸ List.mem_cons_self)
    have hmode : given.mode ≠ .skip := by
      rw [Field.firstOptions, Field.optionsAt, hannotations] at hshown
      exact hshown
    unfold writeVisit writeField at h
    rw [hannotations, if_neg (by simp)] at h
    unfold writeAnnotated at h
    simp only [resolveMacro_of_none hmacro, if_neg hmode] at h
    obtain ⟨allowed, hallowed, h⟩ := Emit.bind_result_ok h
    obtain ⟨_, -, h⟩ := Emit.bind_result_ok h
    have hfalse := allowsExpansion_of_forbids htype hrecurse hforbids hallowed
    have htrue := (Bool.and_eq_true_iff.1 (expand_of_writeAnnotated h)).2
    rw [hfalse] at htrue
    cases htrue

/-- A field without annotations is expanded if fields are, whatever the entry of its type says. -/
theorem expand_of_plain (hplain : v.field.annotations = []) {expand : Bool}
    (h : (b.writeVisit v).result = .ok expand) : expand = b.expandsFields := by
  unfold writeVisit writeField at h
  rw [hplain, if_pos (by rfl)] at h
  obtain ⟨_, -, h⟩ := Emit.bind_result_ok h
  exact (Except.ok.inj h).symm

/-- The step at an annotated field whose type forbids the expansion does not depend on what is done
in the messages behind it, whether it ends well or not. -/
theorem walkField_of_forbids {place : Place} {field : Field} (hannotated : field.annotations ≠ [])
    (hleaves : LeavesToType field) (hforbids : b.TypeForbids field) (enter other : Place → Emit Unit) :
    b.walkField b.writeVisit enter place field = b.walkField b.writeVisit other place field := by
  unfold walkField
  by_cases hskip : field.firstOptions.mode = .skip
  · rw [if_pos hskip, if_pos hskip]
  · rw [if_neg hskip, if_neg hskip]
    apply Emit.bind_congr_ok
    intro expand hexpand
    cases expand with
    | false => rfl
    | true =>
      exact absurd (annotations_of_expanded (v := place.visit field) hskip hleaves hforbids hexpand)
        hannotated

end Visits

/-- The route that goes on through the last field of this one, into a field of the message that it
holds. -/
def Route.further (r : Route) (target : Message) (position : Nat) (field : Field) : Route :=
  ⟨r.hops ++ [⟨r.position, r.field, target⟩], position, field⟩

/-- A route may go on to a field: the last field holds a single message, which is not being expanded
and not too deep, and the field there is not skipped. -/
structure GoesOn (b : Builder) (r : Route) (target : Message) (position : Nat) (field : Field) :
    Prop where
  single : r.field.isSingleMessage
  held : b.pool.targetMessage? r.field = some target
  depth : (r.hops.length : Int) < b.setup.maxDepth
  fresh : target.address ∉ b.message.address :: r.targets
  found : target.fields[position]? = some field
  shown : field.firstOptions.mode ≠ .skip

section Routes

variable {b : Builder} {r : Route} {target : Message} {position : Nat} {field : Field}

theorem along_further (place : Place) :
    place.along (r.further target position field).hops =
      (place.along r.hops).into r.field target :=
  List.foldl_append

theorem targets_further :
    (r.further target position field).targets = r.targets ++ [target.address] :=
  List.map_append

/-- The hops of a route that goes on are its own and the one through its last field. -/
theorem opens_further_iff :
    (∀ before hop after, (r.further target position field).hops = before ++ hop :: after →
        b.Opens (b.root.along before) hop) ↔
      (∀ before hop after, r.hops = before ++ hop :: after → b.Opens (b.root.along before) hop) ∧
        b.Opens (b.root.along r.hops) ⟨r.position, r.field, target⟩ := by
  constructor
  · intro h
    refine ⟨?_, h r.hops _ [] rfl⟩
    intro before hop after heq
    refine h before hop (after ++ [⟨r.position, r.field, target⟩]) ?_
    simp [Route.further, heq]
  · rintro ⟨hbefore, hlast⟩ before hop after heq
    rcases List.eq_nil_or_concat' after with rfl | ⟨rest, last, rfl⟩
    · obtain ⟨rfl, hhop⟩ := List.append_inj' heq rfl
      rw [← (List.cons.inj hhop).1]
      exact hlast
    · have hassoc : before ++ hop :: (rest ++ [last]) = (before ++ hop :: rest) ++ [last] := by simp
      rw [hassoc] at heq
      exact hbefore before hop rest (List.append_inj' heq rfl).1

/-- A route goes on to a field exactly if it may and the methods of its last field ask for it. -/
theorem admits_further_iff (hr : b.Admits r) :
    b.Admits (r.further target position field) ↔
      (b.writeVisit (b.visitOf r)).result = .ok true ∧ b.GoesOn r target position field := by
  have hlength : (r.further target position field).hops.length = r.hops.length + 1 := by
    simp [Route.further]
  have hvisit : (b.root.along r.hops).visit r.field = b.visitOf r := b.visitBy_root r
  have hmessage : (b.root.along (r.further target position field).hops).message = target := by
    rw [along_further]
    rfl
  have hdistinct : (b.message.address :: (r.further target position field).targets).Nodup ↔
      target.address ∉ b.message.address :: r.targets := by
    rw [targets_further, ← List.cons_append, ← List.concat_eq_append, List.nodup_concat]
    exact and_iff_left hr.distinct
  constructor
  · intro h
    have hlast := (opens_further_iff.1 h.opens).2
    have hdepth := h.depth
    rw [hlength] at hdepth
    have hfound := h.field
    rw [hmessage] at hfound
    refine ⟨hvisit ▸ hlast.expands, hlast.single, hlast.target, ?_, hdistinct.1 h.distinct, hfound,
      h.shown⟩
    omega
  · rintro ⟨hexpands, hgoes⟩
    have hlast : b.Opens (b.root.along r.hops) ⟨r.position, r.field, target⟩ :=
      ⟨hr.field, hr.shown, hgoes.single, hgoes.held, hvisit ▸ hexpands⟩
    have hdepth := hgoes.depth
    refine ⟨?_, hdistinct.2 hgoes.fresh, opens_further_iff.2 ⟨hr.opens, hlast⟩, ?_, hgoes.shown⟩
    · rw [hlength]
      omega
    · rw [hmessage]
      exact hgoes.found

/-- No admitted route goes through an annotated field whose type forbids the expansion. -/
theorem annotations_of_hop (hr : b.Admits r) {hop : Hop} (hhop : hop ∈ r.hops)
    (hleaves : LeavesToType hop.field) (hforbids : b.TypeForbids hop.field) :
    hop.field.annotations = [] := by
  obtain ⟨before, after, heq⟩ := List.append_of_mem hhop
  have hopen := hr.opens before hop after heq
  exact annotations_of_expanded (v := (b.root.along before).visit hop.field) hopen.shown hleaves
    hforbids hopen.expands

end Routes

/-- A run that does not fail writes the methods of the fields at the ends of the admitted routes.
None of these goes through an annotated field whose annotations leave the question to a type that
forbids the expansion, and the step at such a field never depends on what is behind it. Through a
field without annotations a route goes on wherever it may, whatever the entry of its type says. -/
theorem expansion_of_types (b : Builder) (h : b.write.result = .ok ()) :
    (∀ channel, linesOf channel b.write =
      (b.recorded.visits.flatMap fun v => linesOf channel (b.writeVisit v)) ++ [""]) ∧
    (∃ routes : List Route,
      b.recorded.visits = routes.map b.visitOf ∧
      (∀ r, r ∈ routes ↔ b.Admits r) ∧
      (∀ r ∈ routes, ∀ hop ∈ r.hops, LeavesToType hop.field → b.TypeForbids hop.field →
        hop.field.annotations = []) ∧
      (∀ r ∈ routes, r.field.annotations = [] → ∀ target position field,
        (r.further target position field ∈ routes ↔
          b.expandsFields = true ∧ b.GoesOn r target position field))) ∧
    (∀ place field, field.annotations ≠ [] → LeavesToType field → b.TypeForbids field →
      ∀ enter other : Place → Emit Unit,
        b.walkField b.writeVisit enter place field =
          b.walkField b.writeVisit other place field) := by
  have hstep := b.step_recorded
  obtain ⟨-, routes, -, hroutes, hvisits⟩ := b.visits_eq_routes h
  rw [← hstep] at h
  refine ⟨?_, ⟨routes, hvisits, hroutes, ?_, ?_⟩, ?_⟩
  · intro channel
    rw [← hstep]
    exact (linesOf_recorded channel h).2
  · intro r hr hop hhop hleaves hforbids
    exact annotations_of_hop ((hroutes r).1 hr) hhop hleaves hforbids
  · intro r hr hplain target position field
    have hvisited : b.visitOf r ∈ b.recorded.visits := hvisits ▸ List.mem_map_of_mem hr
    obtain ⟨expand, hexpand⟩ := (linesOf_recorded .header h).1 _ hvisited
    have hsame : expand = b.expandsFields := expand_of_plain (v := b.visitOf r) hplain hexpand
    rw [hroutes, admits_further_iff ((hroutes r).1 hr), hexpand, hsame, Except.ok.injEq]
  · intro place field hannotated hleaves hforbids enter other
    exact walkField_of_forbids hannotated hleaves hforbids enter other

/-- The builder of a message with a field without annotations, whose type forbids the expansion. -/
def forbidden : Builder :=
  let a := plainMessage "A" [singleField "b" ⟨"A", [0]⟩ ⟨"B", [0]⟩]
  let x := { singleField "x" ⟨"B", [0]⟩ ⟨"B", [0]⟩ with kind := .int32, target := .scalar }
  let b := { plainMessage "B" [x] with fullName := "p.B", outermost := "p.B" }
  let typeMap : TypeMap := .ofList [("::p::B", { recurse := false })]
  ofMessage typeMap { messages := [a, b] } [] a

/-- The field of the inner message is written nevertheless. -/
theorem expansion_of_types_forbidden :
    let field := singleField "b" ⟨"A", [0]⟩ ⟨"B", [0]⟩
    LeavesToType field ∧ forbidden.TypeForbids field ∧
      (∃ routes : List Route,
        forbidden.recorded.visits = routes.map forbidden.visitOf ∧
          ∀ r ∈ routes, r.field.annotations = [] → ∀ target position inner,
            (r.further target position inner ∈ routes ↔
              forbidden.expandsFields = true ∧ forbidden.GoesOn r target position inner)) ∧
      forbidden.recorded.visits.map (fun v => (v.dataParent, v.nameParent, v.field.name)) =
        [("data_.", "", "b"), ("data_.mutable_b()->", "B", "x")] := by
  intro field
  have hleaves : LeavesToType field := by
    intro given hgiven
    cases hgiven
  have hforbids : forbidden.TypeForbids field := by
    have htype : forbidden.pool.cppType field = "::p::B" := by decide +kernel
    have hentry : forbidden.typeMap.get? "::p::B" = some { recurse := false } := by decide +kernel
    exact ⟨_, htype ▸ hentry, rfl⟩
  have hok : forbidden.write.result = .ok () := by decide +kernel
  obtain ⟨-, ⟨routes, hvisits, -, -, hplain⟩, -⟩ := expansion_of_types forbidden hok
  exact ⟨hleaves, hforbids, ⟨routes, hvisits, hplain⟩, by decide +kernel⟩

end FluentGen.Builder
