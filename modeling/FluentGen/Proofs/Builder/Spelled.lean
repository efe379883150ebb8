import FluentGen.Proofs.Builder.Visits
import FluentGen.Proofs.Name.Style
import FluentGen.Proofs.Schema.Holds

/-!
The names along a route. Without annotations the name of a method ends with the names of all fields
of its route, run together in camel case. Nothing keeps two routes from running together to one
text; but if all names are single words, a route can be told from it.
-/

namespace FluentGen.Builder

open Schema (Field Message Address)

/-- Without annotations the schema says nothing about the methods of its fields. -/
def Unannotated (b : Builder) : Prop :=
  ∀ m ∈ b.message :: b.pool.messages, ∀ f ∈ m.fields, f.annotations = []

/-- Every message has fields of different names, and each name is a single word. -/
def SingleWords (b : Builder) : Prop :=
  ∀ m ∈ b.message :: b.pool.messages,
    (m.fields.map (·.name)).Nodup ∧ ∀ f ∈ m.fields, Name.isWord f.name = true

def Route.names (r : Route) : List String :=
  r.hops.map (·.field.name) ++ [r.field.name]

/-- What the names of a route run together to. -/
def Route.spelled (r : Route) : String :=
  String.join (r.names.map Name.camelCase)

section Routes

variable {b : Builder} {r r' : Route}

theorem into_mem_messages {place : Place} {hop : Hop} (h : b.Opens place hop) :
    (place.into hop.field hop.target).message ∈ b.pool.messages :=
  Schema.Pool.mem_messages_of_targetMessage? h.target

-- The induction is on the hops: behind the first one, the messages are still those of the schema.
theorem AdmitsFrom.fields_mem {path : List Address} {place : Place} {hops : List Hop}
    {position : Nat} {field : Field} (h : b.AdmitsFrom path place ⟨hops, position, field⟩) :
    ∀ f ∈ hops.map (·.field) ++ [field],
      ∃ m ∈ place.message :: b.pool.messages, f ∈ m.fields := by
  induction hops generalizing path place with
  | nil =>
    intro f hf
    rw [List.map_nil, List.nil_append, List.mem_singleton] at hf
    subst hf
    exact ⟨place.message, List.mem_cons_self, List.mem_of_getElem? h.field⟩
  | cons hop hops ih =>
    have hbehind : b.AdmitsFrom path place (.behind hop ⟨hops, position, field⟩) := h
    obtain ⟨hopen, hrest⟩ := AdmitsFrom.behind_iff.1 hbehind
    intro f hf
    rw [List.map_cons, List.cons_append] at hf
    rcases List.mem_cons.1 hf with rfl | hf
    · exact ⟨place.message, List.mem_cons_self, List.mem_of_getElem? hopen.field⟩
    · obtain ⟨m, hm, hfield⟩ := ih hrest f hf
      refine ⟨m, List.mem_cons_of_mem _ ?_, hfield⟩
      rcases List.mem_cons.1 hm with rfl | hm
      · exact into_mem_messages hopen
      · exact hm

theorem Admits.fields_mem (h : b.Admits r) :
    ∀ f ∈ r.hops.map (·.field) ++ [r.field], ∃ m ∈ b.message :: b.pool.messages, f ∈ m.fields :=
  (admitsFrom_root_iff.2 h).fields_mem

theorem Admits.annotations (hplain : b.Unannotated) (h : b.Admits r) :
    r.field.annotations = [] := by
  obtain ⟨m, hm, hfield⟩ := h.fields_mem r.field (by simp)
  exact hplain m hm _ hfield

theorem label_of_unannotated {hop : Hop} (h : hop.field.annotations = []) :
    hop.label = Name.camelCase hop.field.name := by
  have hname : textOf hop.field.firstOptions.name = "" := by
    rw [Field.firstOptions, Field.optionsAt, h]
    rfl
  unfold Hop.label
  rw [hname]
  rfl

/-- Without annotations the name of a method ends with what its route runs together to. -/
theorem nameParent_visitOf (hplain : b.Unannotated) (h : b.Admits r) :
    (b.visitOf r).nameParent ++ Name.camelCase r.field.name =
      textOf b.options.rootName ++ r.spelled := by
  have hlabels : r.hops.map Hop.label = r.hops.map fun hop => Name.camelCase hop.field.name := by
    apply List.map_congr_left
    intro hop hhop
    obtain ⟨m, hm, hfield⟩ := h.fields_mem hop.field (by
      exact List.mem_append_left _ (List.mem_map_of_mem hhop))
    exact label_of_unannotated (hplain m hm _ hfield)
  unfold visitOf Route.spelled Route.names
  rw [hlabels, List.map_append, List.map_map, String.join_append]
  simp [String.append_assoc, Function.comp_def]

theorem position_of_name {fields : List Field} {i j : Nat} {f g : Field}
    (hdistinct : (fields.map (·.name)).Nodup) (hf : fields[i]? = some f) (hg : fields[j]? = some g)
    (hname : f.name = g.name) : i = j ∧ f = g := by
  have hi : i < (fields.map (·.name)).length := by
    rw [List.length_map]
    exact (List.getElem?_eq_some_iff.1 hf).1
  have hsame : i = j := by
    rw [← List.getElem?_inj hi hdistinct, List.getElem?_map, List.getElem?_map, hf, hg,
      Option.map_some, Option.map_some, hname]
  subst hsame
  exact ⟨rfl, Option.some.inj (hf.symm.trans hg)⟩

-- The induction is on the hops of one route. The names of the first hops are equal, so these are
-- one field of one message, and lead to the same place.
/-- Where no message has a name twice, a route is told by the names of its fields. -/
theorem eq_of_names_eq {path path' : List Address} {place : Place} {hops hops' : List Hop}
    {position position' : Nat} {field field' : Field}
    (hdistinct : ∀ m ∈ place.message :: b.pool.messages, (m.fields.map (·.name)).Nodup)
    (h : b.AdmitsFrom path place ⟨hops, position, field⟩)
    (h' : b.AdmitsFrom path' place ⟨hops', position', field'⟩)
    (hnames : hops.map (·.field.name) ++ [field.name] =
      hops'.map (·.field.name) ++ [field'.name]) :
    hops = hops' ∧ position = position' ∧ field = field' := by
  have hhere := hdistinct place.message List.mem_cons_self
  induction hops generalizing path path' place hops' with
  | nil =>
    cases hops' with
    | nil =>
      have hname : field.name = field'.name := by simpa using hnames
      exact ⟨rfl, position_of_name hhere h.field h'.field hname⟩
    | cons hop' hops' =>
      have hlength := congrArg List.length hnames
      simp at hlength
  | cons hop hops ih =>
    cases hops' with
    | nil =>
      have hlength := congrArg List.length hnames
      simp at hlength
    | cons hop' hops' =>
      have hbehind : b.AdmitsFrom path place (.behind hop ⟨hops, position, field⟩) := h
      have hbehind' : b.AdmitsFrom path' place (.behind hop' ⟨hops', position', field'⟩) := h'
      obtain ⟨hopen, hrest⟩ := AdmitsFrom.behind_iff.1 hbehind
      obtain ⟨hopen', hrest'⟩ := AdmitsFrom.behind_iff.1 hbehind'
      rw [List.map_cons, List.map_cons, List.cons_append, List.cons_append] at hnames
      obtain ⟨hname, hbehindNames⟩ := List.cons.inj hnames
      obtain ⟨hposition, hfield⟩ := position_of_name hhere hopen.field hopen'.field hname
      have htarget : hop.target = hop'.target := by
        have hleads := hopen.target
        rw [hfield, hopen'.target] at hleads
        exact (Option.some.inj hleads).symm
      have hhop : hop = hop' := by
        cases hop
        cases hop'
        cases hposition
        cases hfield
        cases htarget
        rfl
      subst hhop
      have hinside : ∀ m ∈ (place.into hop.field hop.target).message :: b.pool.messages,
          (m.fields.map (·.name)).Nodup := by
        intro m hm
        rcases List.mem_cons.1 hm with rfl | hm
        · exact hdistinct _ (List.mem_cons_of_mem _ (into_mem_messages hopen))
        · exact hdistinct m (List.mem_cons_of_mem _ hm)
      obtain ⟨hhops, hlast⟩ := ih hinside hrest hrest' hbehindNames (hinside _ List.mem_cons_self)
      exact ⟨congrArg (hop :: ·) hhops, hlast⟩

/-- Two routes through single words are told by what they run together to. -/
theorem eq_of_spelled_eq (hwords : b.SingleWords) (h : b.Admits r) (h' : b.Admits r')
    (heq : r.spelled = r'.spelled) : r = r' := by
  have hword : ∀ {s : Route}, b.Admits s → ∀ name ∈ s.names, Name.isWord name = true := by
    intro s hs name hname
    have hfields : s.names = (s.hops.map (·.field) ++ [s.field]).map (·.name) := by
      simp [Route.names, Function.comp_def]
    rw [hfields] at hname
    obtain ⟨f, hf, rfl⟩ := List.mem_map.1 hname
    obtain ⟨m, hm, hfield⟩ := hs.fields_mem f hf
    exact (hwords m hm).2 f hfield
  have hchars := congrArg String.toList heq
  rw [Route.spelled, Route.spelled, String.toList_join, String.toList_join, List.flatMap_map,
    List.flatMap_map] at hchars
  have hnames := Name.eq_of_joined_eq (hword h) (hword h') hchars
  obtain ⟨hops, position, field⟩ := r
  obtain ⟨hops', position', field'⟩ := r'
  have hdistinct : ∀ m ∈ b.root.message :: b.pool.messages, (m.fields.map (·.name)).Nodup :=
    fun m hm => (hwords m hm).1
  obtain ⟨rfl, rfl, rfl⟩ := eq_of_names_eq hdistinct (admitsFrom_root_iff.2 h)
    (admitsFrom_root_iff.2 h') hnames
  rfl

end Routes

end FluentGen.Builder
