import FluentGen.Assembly.Files
import FluentGen.Proofs.Dictionary
import FluentGen.Proofs.Dictionary.Lineage
import FluentGen.Proofs.Except

/-!
The sections of the dictionary of an assembly. A section that is filled with one value for each item
of a list keeps these, whatever is added behind it under other names. So the layouts find in each
include section the include lines that have been computed for it.
-/

namespace FluentGen

namespace Dictionary

variable {d next : Dictionary} {name : String}

/-- A dictionary that is extended by scopes and values, but not by any in the section of the
outermost scope or in the scopes that were there. -/
structure Extends (name : String) (d next : Dictionary) : Prop where
  length : d.scopes.length ≤ next.scopes.length
  values : ∀ scope < d.scopes.length, ∀ n, next.ownValue? scope n = d.ownValue? scope n
  sections : next.sections 0 name = d.sections 0 name

namespace Extends

theorem refl (name : String) (d : Dictionary) : d.Extends name d :=
  ⟨Nat.le_refl _, fun _ _ _ => rfl, rfl⟩

theorem setValue (h : d.Extends name next) {scope : Nat} (hscope : d.scopes.length ≤ scope)
    (n value : String) : d.Extends name (next.setValue scope n value) where
  length := by
    rw [length_setValue]
    exact h.length
  values := by
    intro s hs m
    rw [ownValue?_setValue_of_ne fun hsame => by omega]
    exact h.values s hs m
  sections := by
    rw [sections_setValue]
    exact h.sections

theorem setValues (h : d.Extends name next) {scope : Nat} (hscope : d.scopes.length ≤ scope)
    (values : List (String × String)) : d.Extends name (next.setValues scope values) := by
  induction values generalizing next with
  | nil => exact h
  | cons v rest ih => exact ih (h.setValue hscope v.1 v.2)

theorem addSection (h : d.Extends name next) {scope : Nat} {n : String}
    (hother : ¬ (scope = 0 ∧ n = name)) : d.Extends name (next.addSection scope n).1 where
  length := by
    rw [length_addSection]
    exact Nat.le_succ_of_le h.length
  values := by
    intro s hs m
    rw [ownValue?_addSection]
    exact h.values s hs m
  sections := by
    rw [sections_addSection_of_ne hother]
    exact h.sections

theorem addSectionWith (h : d.Extends name next) {scope : Nat} {n : String}
    (hother : ¬ (scope = 0 ∧ n = name)) (values : List (String × String)) :
    d.Extends name (next.addSectionWith scope n values) :=
  (h.addSection hother).setValues h.length values

end Extends

/-- The scopes of a section of the outermost scope have these values, in order. -/
def Lists (d : Dictionary) (name key : String) (values : List String) : Prop :=
  List.Forall₂ (fun scope value => d.ownValue? scope key = some value) (d.sections 0 name) values

section Lists

variable {key : String} {values : List String}

theorem lt_of_ownValue? {scope : Nat} {value : String} (h : d.ownValue? scope key = some value) :
    scope < d.scopes.length := by
  obtain ⟨s, hs, -⟩ := Option.bind_eq_some_iff.1 h
  exact (List.getElem?_eq_some_iff.1 hs).1

/-- A value that a scope has itself is the one that is found there. -/
theorem value_of_ownValue? {scope : Nat} {value : String} (h : d.ownValue? scope key = some value) :
    d.value scope key = value := by
  have hscope := lt_of_ownValue? h
  obtain ⟨depth, hdepth⟩ := Nat.exists_eq_add_one.2 (Nat.zero_lt_of_lt hscope)
  rw [Dictionary.value, hdepth, valueFrom_succ hscope, h]
  rfl

theorem Lists.map_value (h : d.Lists name key values) :
    (d.sections 0 name).map (d.value · key) = values := by
  have hmap := map_eq_map_of_forall₂ (g := id) h fun _ _ => value_of_ownValue?
  rwa [List.map_id] at hmap

theorem Lists.extends (h : d.Lists name key values) (hnext : d.Extends name next) :
    next.Lists name key values := by
  rw [Lists, hnext.sections]
  refine List.Forall₂.imp ?_ h
  intro scope value hvalue
  rw [hnext.values scope (lt_of_ownValue? hvalue)]
  exact hvalue

/-- One more scope with one value. -/
theorem Lists.addSectionWith (h : d.Lists name key values) (hscope : 0 < d.scopes.length)
    (value : String) :
    (d.addSectionWith 0 name [(key, value)]).Lists name key (values ++ [value]) := by
  have hadded : (d.addSectionWith 0 name [(key, value)]) =
      (d.addSection 0 name).1.setValue d.scopes.length key value := rfl
  have hnew : d.scopes.length < (d.addSection 0 name).1.scopes.length := by
    rw [length_addSection]
    exact Nat.lt_succ_self _
  rw [hadded, Lists, sections_setValue, sections_addSection hscope, if_pos ⟨rfl, rfl⟩]
  refine List.rel_append (List.Forall₂.imp ?_ h) (.cons ?_ .nil)
  · intro scope value hvalue
    rw [ownValue?_setValue_of_ne fun hsame => Nat.ne_of_gt (lt_of_ownValue? hvalue) hsame.1,
      ownValue?_addSection]
    exact hvalue
  · rw [ownValue?_setValue hnew, if_pos ⟨rfl, rfl⟩]

end Lists

end Dictionary

namespace Assembly

open Dictionary

section Sections

variable {d next : Dictionary} {name key : String}

theorem addSections_cons (d : Dictionary) (name key item : String) (rest : List String) :
    addSections d name key (item :: rest) =
      addSections (d.addSectionWith 0 name [(key, item)]) name key rest := rfl

theorem length_addSectionWith (scope : Nat) (values : List (String × String)) :
    d.scopes.length ≤ (d.addSectionWith scope name values).scopes.length := by
  rw [addSectionWith, scopes_setValues, List.length_modify, length_addSection]
  exact Nat.le_succ _

theorem length_addSections (d : Dictionary) (name : String) (items : List String) :
    d.scopes.length ≤ (addSections d name key items).scopes.length := by
  induction items generalizing d with
  | nil => exact Nat.le_refl _
  | cons item rest ih => exact Nat.le_trans (length_addSectionWith _ _) (ih _)

/-- Sections of another name are added beside a section. -/
theorem extends_addSections (h : d.Extends name next) {other : String} (hother : other ≠ name)
    (items : List String) : d.Extends name (addSections next other key items) := by
  induction items generalizing next with
  | nil => exact h
  | cons item rest ih =>
    rw [addSections_cons]
    exact ih (h.addSectionWith (fun hsame => hother hsame.2) _)

theorem lists_addSections {values : List String} (h : d.Lists name key values)
    (hscope : 0 < d.scopes.length) (items : List String) :
    (addSections d name key items).Lists name key (values ++ items) := by
  induction items generalizing d values with
  | nil =>
    rw [List.append_nil]
    exact h
  | cons item rest ih =>
    rw [addSections_cons, List.append_cons]
    exact ih (h.addSectionWith hscope item) (Nat.lt_of_lt_of_le hscope (length_addSectionWith _ _))

/-- A builder is added in scopes of its own. -/
theorem extends_addBuilder (h : d.Extends name next) (hscope : 0 < d.scopes.length)
    (hname : name ≠ "BUILDER") (part : Part) : d.Extends name (addBuilder next part) := by
  have hadded : d.Extends name (next.addSection 0 "BUILDER").1 :=
    h.addSection fun hsame => hname hsame.2.symm
  have hinner : next.scopes.length ≠ 0 := Nat.ne_of_gt (Nat.lt_of_lt_of_le hscope h.length)
  have hfeatures : ∀ (features : List String) {next' : Dictionary}, d.Extends name next' →
      d.Extends name (features.foldl (fun d feature =>
        d.addSectionWith next.scopes.length feature (builderValues part.builder)) next') := by
    intro features
    induction features with
    | nil => exact fun h => h
    | cons feature rest ih =>
      exact fun h => ih (h.addSectionWith (fun hsame => hinner hsame.1) _)
  exact hfeatures _ ((hadded.setValues h.length _).setValues h.length _)

theorem extends_foldl_addBuilder (h : d.Extends name next) (hscope : 0 < d.scopes.length)
    (hname : name ≠ "BUILDER") (parts : List Part) :
    d.Extends name (parts.foldl addBuilder next) := by
  induction parts generalizing next with
  | nil => exact h
  | cons part rest ih => exact ih (extends_addBuilder h hscope hname part)

theorem extends_foldl_addSections {sections : List (String × List String)}
    (h : d.Extends name next) (hname : name ∉ sections.map Prod.fst) :
    d.Extends name (sections.foldl (fun d s => addSections d s.1 key s.2) next) := by
  induction sections generalizing next with
  | nil => exact h
  | cons first rest ih =>
    rw [List.map_cons, List.mem_cons, not_or] at hname
    exact ih (extends_addSections h (Ne.symm hname.1) first.2) hname.2

/-- Sections of different names that are filled one after the other each have their own items. -/
theorem lists_foldl_addSections {sections : List (String × List String)}
    (hnames : (sections.map Prod.fst).Nodup) (hscope : 0 < d.scopes.length)
    (hempty : ∀ s ∈ sections, d.sections 0 s.1 = []) :
    ∀ s ∈ sections,
      (sections.foldl (fun d s => addSections d s.1 key s.2) d).Lists s.1 key s.2 := by
  induction sections generalizing d with
  | nil => simp
  | cons first rest ih =>
    rw [List.map_cons, List.nodup_cons] at hnames
    rw [List.forall_mem_cons] at hempty
    have hstart : d.Lists first.1 key [] := by
      rw [Dictionary.Lists, hempty.1]
      exact .nil
    have hfirst := lists_addSections hstart hscope first.2
    have hlonger : 0 < (addSections d first.1 key first.2).scopes.length :=
      Nat.lt_of_lt_of_le hscope (length_addSections d first.1 first.2)
    have hrest : ∀ s ∈ rest, (addSections d first.1 key first.2).sections 0 s.1 = [] := by
      intro s hs
      have hne : first.1 ≠ s.1 := fun heq => hnames.1 (List.mem_map.2 ⟨s, hs, heq.symm⟩)
      rw [(extends_addSections (Extends.refl s.1 d) hne first.2).sections, hempty.2 s hs]
    intro s hs
    rcases List.mem_cons.1 hs with rfl | hs
    · rw [List.foldl_cons]
      exact hfirst.extends (extends_foldl_addSections (.refl _ _) hnames.1)
    · exact ih hnames.2 hlonger hrest s hs

end Sections

/-- The layouts find in the include sections the include lines that have been computed for them. -/
theorem includeLines_dictionary (a : Assembly) :
    ∀ s ∈ a.includeSections, Layout.includeLines a.dictionary s.1 = s.2 := by
  let start := (Dictionary.root "ProtoBuilder").setValues 0 [
    ("HEADER_GUARD", Name.headerGuard a.setup.header),
    ("INTERFACE_GUARD", Name.interfaceGuard a.setup.header),
    ("HEADER_FILE", a.setup.header),
    ("INTERFACE_FILE", if a.setup.makeInterface then a.setup.interfaceHeader else "")]
  have hscope : 0 < start.scopes.length := by
    rw [scopes_setValues, List.length_modify]
    exact Nat.one_pos
  have hempty : ∀ name, start.sections 0 name = [] := by
    intro name
    rw [sections_eq, scopes_setValues]
    rfl
  let filled := a.includeSections.foldl (fun d s => addSections d s.1 "INCLUDE" s.2) start
  have hlists : ∀ s ∈ a.includeSections, filled.Lists s.1 "INCLUDE" s.2 :=
    lists_foldl_addSections (by simp [includeSections]) hscope fun s _ => hempty s.1
  intro s hs
  have hnames : s.1 ∈ ["INCLUDES", "HEADER_INCLUDES", "INTERFACE_INCLUDES", "SOURCE_INCLUDES"] :=
    List.mem_map_of_mem (f := Prod.fst) hs
  have hapart : ∀ other ∈ ["NAMESPACES", "ALL_NAMESPACES", "NAMESPACES_END", "BUILDER"],
      other ∉ ["INCLUDES", "HEADER_INCLUDES", "INTERFACE_INCLUDES", "SOURCE_INCLUDES"] := by
    decide
  have hother : ∀ other ∈ ["NAMESPACES", "ALL_NAMESPACES", "NAMESPACES_END", "BUILDER"],
      other ≠ s.1 := fun other hother heq => hapart other hother (heq ▸ hnames)
  have hgrown : start.Extends "" filled :=
    extends_foldl_addSections (.refl "" start) (by simp [includeSections])
  have hfilled : 0 < filled.scopes.length := Nat.lt_of_lt_of_le hscope hgrown.length
  refine Lists.map_value ((hlists s hs).extends ?_)
  refine extends_foldl_addBuilder ?_ hfilled (hother _ (by simp)).symm _
  refine extends_addSections (extends_addSections (extends_addSections (.refl _ _) ?_ _) ?_ _) ?_ _
  · exact hother _ (by simp)
  · exact hother _ (by simp)
  · exact hother _ (by simp)

end Assembly

end FluentGen
