import FluentGen.Proofs.Builder.Routes
import FluentGen.Proofs.Schema.Holds
import Mathlib.Data.List.Perm.Subperm

/-!
The list of all routes that a builder admits. Fields are listed in their order, and behind each
field come the routes that go on into the message it holds. The list is strictly increasing in the
positions, and a message is entered only while it is not being expanded, so the number of messages
bounds the depth of the recursion.
-/

namespace FluentGen.Builder

open Schema (Field Message Address)

/-- Whether the methods of a field ask for the message in it to be expanded. -/
def expandsAt (b : Builder) (place : Place) (field : Field) : Bool :=
  match (b.writeVisit (place.visit field)).result with
  | .ok expand => expand
  | .error _ => false

/-- The message that is entered behind a field, if any. -/
def entered? (b : Builder) (place : Place) (field : Field) : Option Message :=
  if b.expandsAt place field && field.isSingleMessage then b.pool.targetMessage? field else none

/-- The routes that begin with the field at a position of the message of a place. `inner` lists the
routes from the place behind it. -/
def routesAt (b : Builder) (inner : Place → List Route) (place : Place) (position : Nat)
    (field : Field) : List Route :=
  if field.firstOptions.mode = .skip then []
  else
    ⟨[], position, field⟩ ::
      match b.entered? place field with
      | none => []
      | some target =>
        (inner (place.into field target)).map (Route.behind ⟨position, field, target⟩)

/-- The routes that begin with one of the given fields, of which the first one stands at the given
position. -/
def routesAmong (b : Builder) (inner : Place → List Route) (place : Place) :
    (position : Nat) → List Field → List Route
  | _, [] => []
  | position, field :: rest =>
    b.routesAt inner place position field ++ b.routesAmong inner place (position + 1) rest

/-- The routes from a place that is reached along `path`. The fuel bounds their length. -/
def routesFrom (b : Builder) : (fuel : Nat) → (path : List Address) → Place → List Route
  | 0, _, _ => []
  | fuel + 1, path, place =>
    if b.setup.maxDepth < path.length then []
    else if path.contains place.message.address then []
    else
      b.routesAmong (b.routesFrom fuel (place.message.address :: path)) place 0
        place.message.fields

section Order

variable {b : Builder} {inner : Place → List Route} {place : Place}

theorem positions_ne_nil (r : Route) : r.positions ≠ [] := by
  simp [Route.positions]

/-- A route begins at the position of the field that it is listed for. -/
theorem head_positions_of_mem_routesAt {position : Nat} {field : Field} {r : Route}
    (h : r ∈ b.routesAt inner place position field) : r.positions.head? = some position := by
  unfold routesAt at h
  split at h
  · cases h
  · rcases List.mem_cons.1 h with rfl | hinner
    · rfl
    · split at hinner
      · cases hinner
      · obtain ⟨r, -, rfl⟩ := List.mem_map.1 hinner
        rfl

theorem head_positions_of_mem_routesAmong {position : Nat} {fields : List Field} {r : Route}
    (h : r ∈ b.routesAmong inner place position fields) :
    ∃ n, r.positions.head? = some n ∧ position ≤ n := by
  induction fields generalizing position with
  | nil => cases h
  | cons field rest ih =>
    rcases List.mem_append.1 h with hfirst | hrest
    · exact ⟨position, head_positions_of_mem_routesAt hfirst, Nat.le_refl _⟩
    · obtain ⟨n, hn, hle⟩ := ih hrest
      exact ⟨n, hn, by omega⟩

theorem lt_of_head_lt {first second : List Nat} {m n : Nat} (hfirst : first.head? = some m)
    (hsecond : second.head? = some n) (h : m < n) : first < second := by
  cases first with
  | nil => cases hfirst
  | cons a first =>
    cases second with
    | nil => cases hsecond
    | cons c second =>
      cases hfirst
      cases hsecond
      exact List.cons_lt_cons_iff.2 (Or.inl h)

theorem singleton_lt_behind (n : Nat) (r : Route) : [n] < n :: r.positions := by
  refine List.cons_lt_cons_iff.2 (Or.inr ⟨rfl, ?_⟩)
  cases hp : r.positions with
  | nil => exact absurd hp (positions_ne_nil r)
  | cons a rest => exact List.nil_lt_cons a rest

/-- Strictly increasing positions: each route once, a field in front of the fields behind it. -/
def Increasing (routes : List Route) : Prop :=
  routes.Pairwise fun r s => r.positions < s.positions

theorem increasing_routesAt {position : Nat} {field : Field}
    (hinner : ∀ place, Increasing (inner place)) :
    Increasing (b.routesAt inner place position field) := by
  unfold routesAt
  split
  · exact List.Pairwise.nil
  · refine List.pairwise_cons.2 ⟨?_, ?_⟩
    · intro r hr
      split at hr
      · cases hr
      · obtain ⟨r, -, rfl⟩ := List.mem_map.1 hr
        exact singleton_lt_behind position r
    · split
      · exact List.Pairwise.nil
      · refine List.pairwise_map.2 ((hinner _).imp ?_)
        intro r s hlt
        exact List.cons_lt_cons_iff.2 (Or.inr ⟨rfl, hlt⟩)

theorem increasing_routesAmong {position : Nat} {fields : List Field}
    (hinner : ∀ place, Increasing (inner place)) :
    Increasing (b.routesAmong inner place position fields) := by
  induction fields generalizing position with
  | nil => exact List.Pairwise.nil
  | cons field rest ih =>
    refine List.pairwise_append.2 ⟨increasing_routesAt hinner, ih, ?_⟩
    intro r hr s hs
    obtain ⟨n, hn, hle⟩ := head_positions_of_mem_routesAmong hs
    exact lt_of_head_lt (head_positions_of_mem_routesAt hr) hn (by omega)

theorem increasing_routesFrom (b : Builder) (fuel : Nat) (path : List Address) (place : Place) :
    Increasing (b.routesFrom fuel path place) := by
  induction fuel generalizing path place with
  | zero => exact List.Pairwise.nil
  | succ fuel ih =>
    unfold routesFrom
    split
    · exact List.Pairwise.nil
    · split
      · exact List.Pairwise.nil
      · exact increasing_routesAmong (ih _)

end Order

section Members

variable {b : Builder}

theorem expandsAt_iff {place : Place} {field : Field} :
    b.expandsAt place field = true ↔ (b.writeVisit (place.visit field)).result = .ok true := by
  unfold expandsAt
  cases (b.writeVisit (place.visit field)).result with
  | error failure => simp
  | ok expand => simp

theorem entered?_eq_some_iff {place : Place} {field : Field} {target : Message} :
    b.entered? place field = some target ↔
      (b.writeVisit (place.visit field)).result = .ok true ∧ field.isSingleMessage ∧
        b.pool.targetMessage? field = some target := by
  unfold entered?
  rw [← expandsAt_iff]
  by_cases h : (b.expandsAt place field && field.isSingleMessage) = true
  · simp_all
  · rw [if_neg h]
    simp only [Bool.and_eq_true, not_and] at h
    simp only [reduceCtorEq, false_iff]
    rintro ⟨hexpand, hsingle, -⟩
    exact h hexpand hsingle

theorem mem_routesAt_iff {inner : Place → List Route} {place : Place} {position : Nat}
    {field : Field} {r : Route} :
    r ∈ b.routesAt inner place position field ↔
      field.firstOptions.mode ≠ .skip ∧
        (r = ⟨[], position, field⟩ ∨
          ∃ target, b.entered? place field = some target ∧
            ∃ rest ∈ inner (place.into field target), rest.behind ⟨position, field, target⟩ = r) := by
  unfold routesAt
  by_cases hskip : field.firstOptions.mode = .skip
  · simp [hskip]
  · rw [if_neg hskip, List.mem_cons]
    cases b.entered? place field with
    | none => simp [hskip]
    | some target => simp [hskip]

theorem mem_routesAmong_iff {inner : Place → List Route} {place : Place} {position : Nat}
    {fields : List Field} {r : Route} :
    r ∈ b.routesAmong inner place position fields ↔
      ∃ i field, fields[i]? = some field ∧ r ∈ b.routesAt inner place (position + i) field := by
  induction fields generalizing position with
  | nil => simp [routesAmong]
  | cons first rest ih =>
    rw [routesAmong, List.mem_append, ih]
    constructor
    · rintro (hfirst | ⟨i, field, hfield, hr⟩)
      · exact ⟨0, first, rfl, hfirst⟩
      · exact ⟨i + 1, field, hfield, by rwa [show position + (i + 1) = position + 1 + i by omega]⟩
    · rintro ⟨i, field, hfield, hr⟩
      cases i with
      | zero =>
        cases hfield
        exact Or.inl hr
      | succ i =>
        refine Or.inr ⟨i, field, hfield, ?_⟩
        rwa [show position + (i + 1) = position + 1 + i by omega] at hr

/-- The addresses that a walk may come to. -/
def addresses (b : Builder) : List Address :=
  b.message.address :: b.pool.messages.map (·.address)

/-- The fuel is enough for the messages that are not being expanded yet. -/
structure Suffices (b : Builder) (fuel : Nat) (path : List Address) : Prop where
  nodup : path.Nodup
  known : path ⊆ b.addresses
  enough : b.addresses.length < fuel + path.length

theorem suffices_root (b : Builder) : b.Suffices (b.pool.messages.length + 2) [] where
  nodup := List.nodup_nil
  known := List.nil_subset _
  enough := by simp [addresses]

theorem Suffices.fuel_ne_zero {fuel : Nat} {path : List Address} (h : b.Suffices fuel path) :
    fuel ≠ 0 := by
  have hlength : path.length ≤ b.addresses.length := (h.nodup.subperm h.known).length_le
  have henough := h.enough
  omega

theorem Suffices.step {fuel : Nat} {path : List Address} {address : Address}
    (h : b.Suffices (fuel + 1) path) (hknown : address ∈ b.addresses) (hfresh : address ∉ path) :
    b.Suffices fuel (address :: path) where
  nodup := List.nodup_cons.2 ⟨hfresh, h.nodup⟩
  known := List.cons_subset.2 ⟨hknown, h.known⟩
  enough := by
    have henough := h.enough
    rw [List.length_cons]
    omega

theorem mem_addresses_of_targetMessage? {field : Field} {target : Message}
    (h : b.pool.targetMessage? field = some target) : target.address ∈ b.addresses :=
  List.mem_cons_of_mem _ (List.mem_map_of_mem (Schema.Pool.mem_messages_of_targetMessage? h))

/-- The routes that are listed are those that are admitted: the list misses none, although its fuel
is limited, since a message is not entered while it is being expanded. -/
theorem mem_routesFrom_iff {fuel : Nat} {path : List Address} {place : Place} {r : Route}
    (hfuel : b.Suffices fuel path) (hplace : place.message.address ∈ b.addresses) :
    r ∈ b.routesFrom fuel path place ↔ b.AdmitsFrom path place r := by
  induction fuel generalizing path place r with
  | zero => exact absurd rfl hfuel.fuel_ne_zero
  | succ fuel ih =>
    unfold routesFrom
    by_cases hdepth : b.setup.maxDepth < path.length
    · rw [if_pos hdepth]
      constructor
      · intro h
        cases h
      · intro h
        have := h.depth_le
        omega
    by_cases hfresh : place.message.address ∈ path
    · rw [if_neg hdepth, if_pos (by simpa using hfresh)]
      constructor
      · intro h
        cases h
      · intro h
        exact absurd hfresh h.fresh
    rw [if_neg hdepth, if_neg (by simpa using hfresh), mem_routesAmong_iff]
    have hstep := hfuel.step hplace hfresh
    constructor
    · rintro ⟨i, field, hfield, hr⟩
      rw [Nat.zero_add] at hr
      obtain ⟨hshown, rfl | ⟨target, hentered, rest, hrest, rfl⟩⟩ := mem_routesAt_iff.1 hr
      · exact
          { depth := by simpa using hdepth
            distinct := List.nodup_cons.2 ⟨hfresh, hfuel.nodup⟩
            opens := fun before hop after heq => by cases before <;> cases heq
            field := hfield
            shown := hshown }
      · obtain ⟨hexpands, hsingle, htarget⟩ := entered?_eq_some_iff.1 hentered
        have hknown : target.address ∈ b.addresses := mem_addresses_of_targetMessage? htarget
        exact AdmitsFrom.behind_iff.2
          ⟨⟨hfield, hshown, hsingle, htarget, hexpands⟩, (ih hstep hknown).1 hrest⟩
    · intro h
      cases hhops : r.hops with
      | nil =>
        have hfield := h.field
        rw [hhops] at hfield
        refine ⟨r.position, r.field, hfield, mem_routesAt_iff.2 ⟨h.shown, Or.inl ?_⟩⟩
        rw [Nat.zero_add, ← hhops]
      | cons hop hops =>
        obtain hr := Route.eq_behind hhops
        rw [hr] at h ⊢
        obtain ⟨hopen, hrest⟩ := AdmitsFrom.behind_iff.1 h
        have hknown : hop.target.address ∈ b.addresses :=
          mem_addresses_of_targetMessage? hopen.target
        refine ⟨hop.position, hop.field, hopen.field, mem_routesAt_iff.2 ⟨hopen.shown, Or.inr ?_⟩⟩
        refine ⟨hop.target, ?_, _, (ih hstep hknown).2 hrest, by rw [Nat.zero_add]⟩
        exact entered?_eq_some_iff.2 ⟨hopen.expands, hopen.single, hopen.target⟩

end Members

end FluentGen.Builder
