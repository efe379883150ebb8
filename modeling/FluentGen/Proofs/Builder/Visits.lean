import FluentGen.Proofs.Builder.Listing
import FluentGen.Proofs.Builder.Recorded

/-!
Which fields a builder writes. A run that does not fail visits a field once for every route that
leads to it, in the lexicographic order of the positions, and with parents that spell out the route.
The schema may be cyclic: a route enters no message twice.
-/

namespace FluentGen.Builder

open Schema (Field Message Address)

/-- The accessor call that a hop adds in front of the accessors. -/
def Hop.access (hop : Hop) : String :=
  "mutable_" ++ Name.accessor hop.field.name ++ "()->"

/-- What a hop adds in front of the method names: the name of the first annotation, or the field's
name in camel case. -/
def Hop.label (hop : Hop) : String :=
  let given := textOf hop.field.firstOptions.name
  if given.isEmpty then Name.camelCase hop.field.name else given

/-- The visit that a route of the builder asks for. -/
def visitOf (b : Builder) (r : Route) : Visit where
  dataParent := b.options.data ++ String.join (r.hops.map Hop.access)
  nameParent := textOf b.options.rootName ++ String.join (r.hops.map Hop.label)
  field := r.field

theorem dataParent_along (place : Place) (hops : List Hop) :
    (place.along hops).dataParent = place.dataParent ++ String.join (hops.map Hop.access) := by
  induction hops generalizing place with
  | nil => simp
  | cons hop hops ih =>
    rw [Place.along_cons, ih]
    simp [Place.into, Hop.access, String.join_cons, String.append_assoc]

theorem nameParent_along (place : Place) (hops : List Hop) :
    (place.along hops).nameParent = place.nameParent ++ String.join (hops.map Hop.label) := by
  induction hops generalizing place with
  | nil => simp
  | cons hop hops ih =>
    rw [Place.along_cons, ih]
    simp [Place.into, Hop.label, String.join_cons, String.append_assoc]

theorem visitBy_root (b : Builder) (r : Route) : b.root.visitBy r = b.visitOf r := by
  simp only [Place.visitBy, Place.visit, dataParent_along, nameParent_along]
  rfl

section Visits

variable {b : Builder} {enter : Place → Recorded Unit} {inner : Place → List Route}

/-- A walk that makes, from every place, the visits of the routes that are listed from there. -/
def Follows (enter : Place → Recorded Unit) (inner : Place → List Route) : Prop :=
  ∀ place, (enter place).step.result = .ok () →
    (enter place).visits = (inner place).map place.visitBy

theorem visits_walkInto {place : Place} {position : Nat} {field : Field} {expand : Bool}
    (hinner : Follows enter inner)
    (hexpand : (b.writeVisit (place.visit field)).result = .ok expand)
    (h : (b.walkInto enter place field expand).step.result = .ok ()) :
    (b.walkInto enter place field expand).visits =
      (match b.entered? place field with
        | none => []
        | some target =>
          (inner (place.into field target)).map (Route.behind ⟨position, field, target⟩)).map
        place.visitBy := by
  have hsame : b.expandsAt place field = expand := by
    simp [expandsAt, hexpand]
  unfold walkInto at h ⊢
  unfold entered?
  rw [hsame]
  generalize (if expand && field.isSingleMessage then b.pool.targetMessage? field else none) =
    entered at h ⊢
  cases entered with
  | none => rfl
  | some target =>
    obtain ⟨_, -, henter, hvisits⟩ := Recorded.visits_bind h
    simp only [hvisits, Recorded.visits_lift, List.nil_append, List.map_map]
    exact hinner _ henter

theorem visits_walkField {place : Place} {position : Nat} {field : Field}
    (hinner : Follows enter inner)
    (h : (b.walkField b.noteVisit enter place field).step.result = .ok ()) :
    (b.walkField b.noteVisit enter place field).visits =
      (b.routesAt inner place position field).map place.visitBy := by
  unfold walkField routesAt at *
  by_cases hskip : field.firstOptions.mode = .skip
  · simp only [if_pos hskip]
    rfl
  · rw [if_neg hskip] at h ⊢
    rw [if_neg hskip]
    obtain ⟨expand, hexpand, hrest, hvisits⟩ := Recorded.visits_bind h
    obtain ⟨_, hinto, -, hmore⟩ := Recorded.visits_bind hrest
    rw [hvisits, hmore, visits_walkInto hinner hexpand hinto, Recorded.visits_lift,
      List.append_nil, List.map_cons]
    rfl

theorem visits_walkFields {place : Place} {position : Nat} {fields : List Field}
    (hinner : Follows enter inner)
    (h : (b.walkFields b.noteVisit enter place fields).step.result = .ok ()) :
    (b.walkFields b.noteVisit enter place fields).visits =
      (b.routesAmong inner place position fields).map place.visitBy := by
  induction fields generalizing position with
  | nil => rfl
  | cons field rest ih =>
    obtain ⟨_, hfirst, hrest, hvisits⟩ := Recorded.visits_bind h
    rw [walkFields, hvisits, visits_walkField hinner hfirst, ih hrest, routesAmong,
      List.map_append]

theorem visits_walkMessage (b : Builder) (fuel : Nat) (path : List Address) :
    Follows (b.walkMessage b.noteVisit fuel path) (b.routesFrom fuel path) := by
  induction fuel generalizing path with
  | zero =>
    intro place _
    rfl
  | succ fuel ih =>
    intro place h
    simp only [walkMessage, routesFrom] at h ⊢
    by_cases hdepth : b.setup.maxDepth < path.length
    · simp only [if_pos hdepth]
      rfl
    · simp only [if_neg hdepth] at h ⊢
      by_cases hpath : path.contains place.message.address
      · simp only [if_pos hpath]
        rfl
      · simp only [if_neg hpath] at h ⊢
        obtain ⟨_, -, hfields, hvisits⟩ := Recorded.visits_bind h
        rw [hvisits, Recorded.visits_lift, List.nil_append]
        exact visits_walkFields (ih _) hfields

end Visits

/-- The visits of a run are those of the listed routes. -/
theorem visits_recorded (b : Builder) (h : b.write.result = .ok ()) :
    b.recorded.visits = (b.routesFrom (b.pool.messages.length + 2) [] b.root).map b.visitOf := by
  rw [← b.step_recorded] at h
  obtain ⟨hwalk, hvisits⟩ := visits_recorded_eq h
  have hroot : b.root.visitBy = b.visitOf := funext b.visitBy_root
  rw [hvisits, visits_walkMessage b _ _ _ hwalk, hroot]

/-- A run that does not fail visits the fields at the ends of the admitted routes: every route once,
in the order of the positions, and nothing else. -/
theorem visits_eq_routes (b : Builder) (h : b.write.result = .ok ()) :
    b.recorded.step = b.write ∧
      ∃ routes : List Route,
        routes.Pairwise (fun r s => r.positions < s.positions) ∧
        (∀ r, r ∈ routes ↔ b.Admits r) ∧
        b.recorded.visits = routes.map b.visitOf := by
  have hstep := b.step_recorded
  refine ⟨hstep, b.routesFrom (b.pool.messages.length + 2) [] b.root, ?_, ?_, ?_⟩
  · exact increasing_routesFrom b _ _ _
  · intro r
    rw [mem_routesFrom_iff b.suffices_root List.mem_cons_self, admitsFrom_root_iff]
  · rw [← hstep] at h
    obtain ⟨_, -, hrest, hvisits⟩ := Recorded.visits_bind h
    obtain ⟨_, hwalk, -, hmore⟩ := Recorded.visits_bind hrest
    rw [recorded, walk, hvisits, hmore, visits_walkMessage b _ _ _ hwalk]
    simp [visitBy_root]

/-- A field that holds a single message, for the messages of `cyclic`. -/
def singleField (name : String) (container target : Address) : Field :=
  { name, fullName := name, number := 1, kind := .message, label := .optional, container
    typeName := "", target := .message target, default := none, annotations := [] }

/-- A message of its own file, for those of `cyclic`. -/
def plainMessage (name : String) (fields : List Field) : Message :=
  { address := ⟨name, [0]⟩, name, fullName := name, container := none, enclosing := []
    outermost := name, fields, enums := [], isMapEntry := false, options := none }

/-- The builder of a message `A` that holds a message `B`, which holds an `A` in turn. -/
def cyclic : Builder :=
  let a := plainMessage "A" [singleField "b" ⟨"A", [0]⟩ ⟨"B", [0]⟩]
  let b := plainMessage "B" [singleField "a" ⟨"B", [0]⟩ ⟨"A", [0]⟩]
  ofMessage {} { messages := [a, b] } [] a

/-- In a cycle of two messages the second field is visited, and the first one not again. -/
theorem visits_eq_routes_cyclic :
    cyclic.write.result = .ok () ∧
      (∃ routes : List Route,
        routes.Pairwise (fun r s => r.positions < s.positions) ∧
        (∀ r, r ∈ routes ↔ cyclic.Admits r) ∧
        cyclic.recorded.visits = routes.map cyclic.visitOf) ∧
      cyclic.recorded.visits.map (fun v => (v.dataParent, v.nameParent, v.field.name)) =
        [("data_.", "", "b"), ("data_.mutable_b()->", "B", "a")] := by
  have hok : cyclic.write.result = .ok () := by decide +kernel
  exact ⟨hok, (visits_eq_routes cyclic hok).2, by decide +kernel⟩

end FluentGen.Builder
