import FluentGen.Builder.Expansion
import Mathlib.Data.List.Nodup

/-!
Routes through the messages of a schema. A route leads from the builder's message through fields
that hold single messages to one last field. Which routes a builder admits is said hop by hop;
`AdmitsFrom.behind_iff` takes a route apart at its first hop.
-/

namespace FluentGen.Builder

open Schema (Field Message Address)

/-- A field that leads into a message, with its position in the message that it belongs to. -/
structure Hop where
  position : Nat
  field : Field
  target : Message
  deriving DecidableEq, Repr

/-- Fields that lead from one message into the next, and a field of the message they lead to. -/
structure Route where
  hops : List Hop
  position : Nat
  field : Field
  deriving DecidableEq, Repr

namespace Route

/-- The positions of all fields of a route. Their lexicographic order is the order of a walk that
visits a field before the fields of the message it holds. -/
def positions (r : Route) : List Nat :=
  r.hops.map (·.position) ++ [r.position]

/-- The messages behind the hops, by address. -/
def targets (r : Route) : List Address :=
  r.hops.map (·.target.address)

/-- The route with one more hop in front. -/
def behind (hop : Hop) (r : Route) : Route :=
  { r with hops := hop :: r.hops }

@[simp] theorem hops_behind (hop : Hop) (r : Route) : (r.behind hop).hops = hop :: r.hops := rfl

@[simp] theorem field_behind (hop : Hop) (r : Route) : (r.behind hop).field = r.field := rfl

@[simp] theorem position_behind (hop : Hop) (r : Route) :
    (r.behind hop).position = r.position := rfl

@[simp] theorem positions_behind (hop : Hop) (r : Route) :
    (r.behind hop).positions = hop.position :: r.positions := rfl

@[simp] theorem targets_behind (hop : Hop) (r : Route) :
    (r.behind hop).targets = hop.target.address :: r.targets := rfl

theorem eq_behind {r : Route} {hop : Hop} {hops : List Hop} (h : r.hops = hop :: hops) :
    r = behind hop ⟨hops, r.position, r.field⟩ := by
  cases r
  cases h
  rfl

end Route

/-- The place that hops lead to. -/
def Place.along (place : Place) (hops : List Hop) : Place :=
  hops.foldl (fun place hop => place.into hop.field hop.target) place

@[simp] theorem Place.along_nil (place : Place) : place.along [] = place := rfl

@[simp] theorem Place.along_cons (place : Place) (hop : Hop) (hops : List Hop) :
    place.along (hop :: hops) = (place.into hop.field hop.target).along hops := rfl

/-- The visit at the end of a route that begins at a place. -/
def Place.visitBy (place : Place) (r : Route) : Visit :=
  (place.along r.hops).visit r.field

/-- A hop that is taken at a place: a field of the message there, not skipped, which holds a
single message, the target, and whose methods ask for it to be expanded. -/
structure Opens (b : Builder) (place : Place) (hop : Hop) : Prop where
  field : place.message.fields[hop.position]? = some hop.field
  shown : hop.field.firstOptions.mode ≠ .skip
  single : hop.field.isSingleMessage
  target : b.pool.targetMessage? hop.field = some hop.target
  expands : (b.writeVisit (place.visit hop.field)).result = .ok true

/-- The routes that are taken from a place that is reached along `path`, the messages that are
being expanded. -/
structure AdmitsFrom (b : Builder) (path : List Address) (place : Place) (r : Route) : Prop where
  depth : ((path.length + r.hops.length : Nat) : Int) ≤ b.setup.maxDepth
  distinct : (r.targets ++ place.message.address :: path).Nodup
  opens : ∀ before hop after, r.hops = before ++ hop :: after →
    b.Opens (place.along before) hop
  field : (place.along r.hops).message.fields[r.position]? = some r.field
  shown : r.field.firstOptions.mode ≠ .skip

/-- The routes of a builder: at most as many hops as messages may be deep, no message twice, each
hop open where it is taken, and a last field that is not skipped. -/
structure Admits (b : Builder) (r : Route) : Prop where
  depth : (r.hops.length : Int) ≤ b.setup.maxDepth
  distinct : (b.message.address :: r.targets).Nodup
  opens : ∀ before hop after, r.hops = before ++ hop :: after →
    b.Opens (b.root.along before) hop
  field : (b.root.along r.hops).message.fields[r.position]? = some r.field
  shown : r.field.firstOptions.mode ≠ .skip

theorem admitsFrom_root_iff {b : Builder} {r : Route} : b.AdmitsFrom [] b.root r ↔ b.Admits r := by
  have hperm : (r.targets ++ [b.message.address]).Nodup ↔ (b.message.address :: r.targets).Nodup :=
    List.nodup_middle.trans (by rw [List.append_nil])
  constructor
  · intro h
    exact ⟨by simpa using h.depth, hperm.1 h.distinct, h.opens, h.field, h.shown⟩
  · intro h
    exact ⟨by simpa using h.depth, hperm.2 h.distinct, h.opens, h.field, h.shown⟩

namespace AdmitsFrom

variable {b : Builder} {path : List Address} {place : Place}

theorem depth_le {r : Route} (h : b.AdmitsFrom path place r) :
    (path.length : Int) ≤ b.setup.maxDepth := by
  have := h.depth
  omega

theorem fresh {r : Route} (h : b.AdmitsFrom path place r) : place.message.address ∉ path :=
  (List.nodup_cons.1 (List.nodup_append.1 h.distinct).2.1).1

/-- A route that begins with a hop: the hop is open, and the rest is taken from behind it. -/
theorem behind_iff {hop : Hop} {r : Route} :
    b.AdmitsFrom path place (r.behind hop) ↔
      b.Opens place hop ∧
        b.AdmitsFrom (place.message.address :: path) (place.into hop.field hop.target) r := by
  have hperm : ((r.behind hop).targets ++ place.message.address :: path).Nodup ↔
      (r.targets ++ hop.target.address :: place.message.address :: path).Nodup :=
    List.nodup_middle.symm
  constructor
  · intro h
    refine ⟨h.opens [] hop r.hops rfl, ?_, hperm.1 h.distinct, ?_, h.field, h.shown⟩
    · have := h.depth
      simp only [Route.hops_behind, List.length_cons] at this ⊢
      omega
    · intro before next after heq
      exact h.opens (hop :: before) next after (by simp [heq])
  · rintro ⟨hopen, h⟩
    refine ⟨?_, hperm.2 h.distinct, ?_, h.field, h.shown⟩
    · have := h.depth
      simp only [Route.hops_behind, List.length_cons] at this ⊢
      omega
    · intro before next after heq
      cases before with
      | nil =>
        obtain ⟨rfl, -⟩ := List.cons.inj heq
        exact hopen
      | cons first before =>
        obtain ⟨rfl, hrest⟩ := List.cons.inj heq
        exact h.opens before next after hrest

end AdmitsFrom

end FluentGen.Builder
