import FluentGen.Dictionary
import Mathlib.Data.List.Basic

/-!
Look-ups in a dictionary that is built in any order. The value of a name in a scope is the one that
was set last in the nearest of the scope and those around it that has one, and a section has the
scopes that were added to it, in order. So a value that is set is seen in its scope and in those
inside that have no nearer one, and nowhere else.
-/

namespace FluentGen.Dictionary

section Views

variable {d : Dictionary} {scope s : Nat} {name n : String}

/-- The value of a name that a scope has itself. -/
def ownValue? (d : Dictionary) (scope : Nat) (name : String) : Option String :=
  d.scopes[scope]?.bind (·.values.get? name)

/-- The scope around a scope. -/
def parent? (d : Dictionary) (scope : Nat) : Option Nat :=
  d.scopes[scope]?.bind (·.parent)

theorem sections_eq (d : Dictionary) (scope : Nat) (name : String) :
    d.sections scope name = (d.scopes[scope]?.bind (·.sections.get? name)).getD [] := by
  unfold sections
  cases d.scopes[scope]? <;> rfl

theorem length_setValue (value : String) :
    (d.setValue scope name value).scopes.length = d.scopes.length :=
  List.length_modify _ _ _

theorem length_addSection : (d.addSection scope name).1.scopes.length = d.scopes.length + 1 := by
  simp [addSection, modify]

/-- Setting a value changes nothing but the values of its scope. -/
theorem getElem?_setValue (d : Dictionary) (scope : Nat) (name value : String) (s : Nat) :
    (d.setValue scope name value).scopes[s]? = d.scopes[s]?.map fun old =>
      if scope = s then { old with values := old.values.insert name value } else old :=
  List.getElem?_modify _ _ _ _

theorem valueFrom_succ (hscope : scope < d.scopes.length) (depth : Nat) :
    d.valueFrom name (depth + 1) scope =
      (d.ownValue? scope name).getD ((d.parent? scope).elim "" (d.valueFrom name depth)) := by
  rw [valueFrom, ownValue?, parent?, List.getElem?_eq_getElem hscope]
  dsimp only [Option.bind_some]
  cases d.scopes[scope].values.get? name with
  | some value => rfl
  | none => cases d.scopes[scope].parent <;> rfl

theorem ownValue?_setValue_of_ne (h : ¬ (scope = s ∧ name = n)) (value : String) :
    (d.setValue scope name value).ownValue? s n = d.ownValue? s n := by
  rw [ownValue?, getElem?_setValue, ownValue?]
  cases d.scopes[s]? with
  | none => rfl
  | some old =>
    rw [Option.map_some, Option.bind_some, Option.bind_some]
    by_cases hsame : scope = s
    · rw [if_pos hsame, KeyMap.get?_insert, if_neg fun hname => h ⟨hsame, hname.symm⟩]
    · rw [if_neg hsame]

theorem ownValue?_setValue (hscope : scope < d.scopes.length) (value : String) :
    (d.setValue scope name value).ownValue? s n =
      if scope = s ∧ name = n then some value else d.ownValue? s n := by
  by_cases hsame : scope = s ∧ name = n
  · obtain ⟨rfl, rfl⟩ := hsame
    rw [ownValue?, getElem?_setValue, List.getElem?_eq_getElem hscope]
    simp
  · rw [if_neg hsame, ownValue?_setValue_of_ne hsame]

theorem parent?_setValue (value : String) :
    (d.setValue scope name value).parent? s = d.parent? s := by
  rw [parent?, getElem?_setValue, parent?]
  cases d.scopes[s]? with
  | none => rfl
  | some old =>
    rw [Option.map_some, Option.bind_some, Option.bind_some]
    split <;> rfl

theorem sections_setValue (value : String) :
    (d.setValue scope name value).sections s n = d.sections s n := by
  rw [sections_eq, getElem?_setValue, sections_eq]
  cases d.scopes[s]? with
  | none => rfl
  | some old =>
    rw [Option.map_some, Option.bind_some, Option.bind_some]
    split <;> rfl

/-- Adding a scope changes nothing in the scopes that are there but the sections of its parent. -/
theorem getElem?_addSection (d : Dictionary) (scope : Nat) (name : String) (s : Nat) :
    (d.addSection scope name).1.scopes[s]? =
      if s = d.scopes.length then some { name, parent := some scope }
      else d.scopes[s]?.map fun old =>
        if scope = s then
          { old with
            sections := old.sections.insert name
              ((old.sections.get? name).getD [] ++ [d.scopes.length]) }
        else old := by
  rw [addSection]
  dsimp only [modify]
  rw [List.getElem?_append, List.length_modify]
  split
  · next hlt =>
    rw [if_neg (Nat.ne_of_lt hlt)]
    exact List.getElem?_modify _ _ _ _
  · next hge =>
    rw [List.getElem?_singleton]
    by_cases hlast : s = d.scopes.length
    · simp [hlast]
    · rw [if_neg (by omega), if_neg hlast, List.getElem?_eq_none (by omega)]
      rfl

theorem ownValue?_addSection : (d.addSection scope name).1.ownValue? s n = d.ownValue? s n := by
  rw [ownValue?, getElem?_addSection, ownValue?]
  split
  · next hlast =>
    rw [hlast, List.getElem?_eq_none (Nat.le_refl _)]
    rfl
  · cases d.scopes[s]? with
    | none => rfl
    | some old =>
      rw [Option.map_some, Option.bind_some, Option.bind_some]
      split <;> rfl

theorem parent?_addSection :
    (d.addSection scope name).1.parent? s =
      if s = d.scopes.length then some scope else d.parent? s := by
  rw [parent?, getElem?_addSection, parent?]
  split
  · rfl
  · cases d.scopes[s]? with
    | none => rfl
    | some old =>
      rw [Option.map_some, Option.bind_some, Option.bind_some]
      split <;> rfl

theorem sections_addSection_of_ne (h : ¬ (scope = s ∧ name = n)) :
    (d.addSection scope name).1.sections s n = d.sections s n := by
  rw [sections_eq, getElem?_addSection, sections_eq]
  by_cases hlast : s = d.scopes.length
  · rw [if_pos hlast, hlast, List.getElem?_eq_none (Nat.le_refl _)]
    rfl
  · rw [if_neg hlast]
    cases d.scopes[s]? with
    | none => rfl
    | some old =>
      rw [Option.map_some, Option.bind_some, Option.bind_some]
      by_cases hsame : scope = s
      · rw [if_pos hsame, KeyMap.get?_insert, if_neg fun hname => h ⟨hsame, hname.symm⟩]
      · rw [if_neg hsame]

theorem sections_addSection (hscope : scope < d.scopes.length) :
    (d.addSection scope name).1.sections s n =
      d.sections s n ++ if scope = s ∧ name = n then [d.scopes.length] else [] := by
  by_cases hsame : scope = s ∧ name = n
  · obtain ⟨rfl, rfl⟩ := hsame
    rw [sections_eq, getElem?_addSection, if_neg (Nat.ne_of_lt hscope), sections_eq,
      List.getElem?_eq_getElem hscope]
    simp
  · rw [if_neg hsame, sections_addSection_of_ne hsame, List.append_nil]

end Views

/-- What is done with the scopes of a dictionary. -/
inductive Action where
  | set (scope : Nat) (name value : String)
  | add (scope : Nat) (name : String)
  deriving DecidableEq

/-- The dictionary after an action. -/
def act (d : Dictionary) : Action → Dictionary
  | .set scope name value => d.setValue scope name value
  | .add scope name => (d.addSection scope name).1

/-- The dictionary after one action after the other. -/
def actAll (d : Dictionary) (actions : List Action) : Dictionary :=
  actions.foldl act d

/-- Every action is on a scope that is there. At first there are so many. -/
def Possible : (count : Nat) → List Action → Prop
  | _, [] => True
  | count, .set scope _ _ :: rest => scope < count ∧ Possible count rest
  | count, .add scope _ :: rest => scope < count ∧ Possible (count + 1) rest

/-- The scopes around the added ones, with the names of the sections. The scope that is added first
has number one, and so on. -/
def added (actions : List Action) : List (Nat × String) :=
  actions.filterMap fun
    | .set .. => none
    | .add scope name => some (scope, name)

/-- The values that are set for a name in a scope. -/
def valuesSet (actions : List Action) (scope : Nat) (name : String) : List String :=
  actions.filterMap fun
    | .set s n value => if s = scope ∧ n = name then some value else none
    | .add .. => none

/-- The value that is set last. -/
def lastSet (actions : List Action) (scope : Nat) (name : String) : Option String :=
  (valuesSet actions scope name).getLast?

/-- The scopes that are added to a section. -/
def addedTo (actions : List Action) (scope : Nat) (name : String) : List Nat :=
  ((added actions).zipIdx 1).filterMap fun a => if a.1 = (scope, name) then some a.2 else none

/-- The scope that an added one is added to; none for the outermost scope. -/
def around (actions : List Action) : (scope : Nat) → Option Nat
  | 0 => none
  | index + 1 => (added actions)[index]?.map Prod.fst

/-- A scope and those around it, the nearest first. -/
inductive Lineage (actions : List Action) : Nat → List Nat → Prop
  | outermost : Lineage actions 0 [0]
  | inside {scope outer : Nat} {line : List Nat} (next : around actions scope = some outer)
      (rest : Lineage actions outer line) : Lineage actions scope (scope :: line)

/-- A scope of a lineage in front of which no scope has a value for the name. -/
def Decides (actions : List Action) (line : List Nat) (name : String) (scope : Nat) : Prop :=
  scope ∈ line ∧ ∀ nearer ∈ line.takeWhile (· ≠ scope), lastSet actions nearer name = none

/-- A dictionary whose scopes have what the actions say. -/
structure Follows (d : Dictionary) (actions : List Action) : Prop where
  length : d.scopes.length = (added actions).length + 1
  parent : ∀ scope, d.parent? scope = around actions scope
  values : ∀ scope name, d.ownValue? scope name = lastSet actions scope name
  sections : ∀ scope name, d.sections scope name = addedTo actions scope name
  outside : ∀ scope outer, around actions scope = some outer → outer < scope

section History

variable {actions : List Action} {scope : Nat} {name value : String}

theorem added_append (actions more : List Action) :
    added (actions ++ more) = added actions ++ added more :=
  List.filterMap_append

theorem lastSet_add (actions : List Action) (scope : Nat) (name : String) (s : Nat) (n : String) :
    lastSet (actions ++ [.add scope name]) s n = lastSet actions s n := by
  simp [lastSet, valuesSet]

/-- Setting a value decides what is set last for its name in its scope only. -/
theorem lastSet_set (actions : List Action) (scope : Nat) (name value : String) (s : Nat)
    (n : String) :
    lastSet (actions ++ [.set scope name value]) s n =
      if scope = s ∧ name = n then some value else lastSet actions s n := by
  rw [lastSet, valuesSet, List.filterMap_append]
  by_cases hsame : scope = s ∧ name = n
  · simp [hsame]
  · simp [hsame, lastSet, valuesSet]

theorem around_set (actions : List Action) (scope : Nat) (name value : String) :
    around (actions ++ [.set scope name value]) = around actions := by
  funext s
  cases s with
  | zero => rfl
  | succ index => simp [around, added]

theorem addedTo_set (actions : List Action) (scope : Nat) (name value : String) :
    addedTo (actions ++ [.set scope name value]) = addedTo actions := by
  funext s n
  simp [addedTo, added]

theorem addedTo_add (actions : List Action) (scope : Nat) (name : String) (s : Nat) (n : String) :
    addedTo (actions ++ [.add scope name]) s n =
      addedTo actions s n ++
        if (scope, name) = (s, n) then [(added actions).length + 1] else [] := by
  have hadded : added (actions ++ [.add scope name]) = added actions ++ [(scope, name)] :=
    added_append actions _
  rw [addedTo, hadded, List.zipIdx_append, List.filterMap_append, ← addedTo]
  by_cases hsame : (scope, name) = (s, n)
  · simp [hsame, Nat.add_comm]
  · simp [hsame]

theorem around_add (actions : List Action) (scope : Nat) (name : String) (s : Nat) :
    around (actions ++ [.add scope name]) s =
      if s = (added actions).length + 1 then some scope else around actions s := by
  have hadded : added (actions ++ [.add scope name]) = added actions ++ [(scope, name)] :=
    added_append actions _
  cases s with
  | zero => rfl
  | succ index =>
    rw [around, hadded, List.getElem?_append]
    grind [around]

end History

section Step

variable {d : Dictionary} {actions : List Action} {scope : Nat}

theorem follows_root (name : String) : (root name).Follows [] where
  length := rfl
  parent := by
    intro scope
    cases scope with
    | zero => rfl
    | succ index => simp [root, parent?, around, added]
  values := by
    intro scope n
    cases scope with
    | zero => rfl
    | succ index => simp [root, ownValue?, lastSet, valuesSet]
  sections := by
    intro scope n
    rw [sections_eq]
    cases scope with
    | zero => rfl
    | succ index => simp [root, addedTo, added]
  outside := by
    intro scope outer h
    cases scope with
    | zero => cases h
    | succ index => simp [around, added] at h

theorem follows_setValue (h : d.Follows actions) (hscope : scope < d.scopes.length)
    (name value : String) :
    (d.setValue scope name value).Follows (actions ++ [.set scope name value]) where
  length := by
    rw [length_setValue, h.length]
    simp [added]
  parent := by
    intro s
    rw [parent?_setValue, around_set, h.parent]
  values := by
    intro s n
    rw [ownValue?_setValue hscope, lastSet_set, h.values]
  sections := by
    intro s n
    rw [sections_setValue, addedTo_set, h.sections]
  outside := by
    rw [around_set]
    exact h.outside

theorem follows_addSection (h : d.Follows actions) (hscope : scope < d.scopes.length)
    (name : String) : (d.addSection scope name).1.Follows (actions ++ [.add scope name]) where
  length := by
    rw [length_addSection, h.length, added_append]
    simp [added]
  parent := by
    intro s
    rw [parent?_addSection, around_add, h.length, h.parent]
  values := by
    intro s n
    rw [ownValue?_addSection, lastSet_add, h.values]
  sections := by
    intro s n
    rw [sections_addSection hscope, addedTo_add, h.length, h.sections]
    simp only [Prod.mk.injEq]
  outside := by
    intro s outer hs
    rw [around_add] at hs
    split at hs
    · next hnew =>
      rw [hnew, ← h.length, ← Option.some.inj hs]
      exact hscope
    · exact h.outside s outer hs

/-- What actions say is what is there after them, whatever was done before. -/
theorem follows_actAll (h : d.Follows actions) {more : List Action}
    (hmore : Possible d.scopes.length more) : (d.actAll more).Follows (actions ++ more) := by
  induction more generalizing d actions with
  | nil => rwa [List.append_nil]
  | cons a rest ih =>
    rw [List.append_cons]
    cases a with
    | set scope name value =>
      have hrest : Possible (d.setValue scope name value).scopes.length rest := by
        rw [length_setValue]
        exact hmore.2
      exact ih (follows_setValue h hmore.1 name value) hrest
    | add scope name =>
      have hrest : Possible (d.addSection scope name).1.scopes.length rest := by
        rw [length_addSection]
        exact hmore.2
      exact ih (follows_addSection h hmore.1 name) hrest

end Step

section Lookup

variable {d : Dictionary} {actions : List Action} {scope : Nat} {line : List Nat} {name : String}

theorem lineage_unique {other : List Nat} (h : Lineage actions scope line)
    (h' : Lineage actions scope other) : other = line := by
  induction h generalizing other with
  | outermost =>
    cases h' with
    | outermost => rfl
    | inside next rest => cases next
  | inside next rest ih =>
    cases h' with
    | outermost => cases next
    | inside next' rest' =>
      cases next.symm.trans next'
      rw [ih rest']

-- The induction is on the number of the scope: the scope around has a smaller one.
theorem exists_lineage (h : d.Follows actions) {scope : Nat} (hscope : scope < d.scopes.length) :
    ∃ line, Lineage actions scope line := by
  induction scope using Nat.strongRecOn with
  | ind scope ih =>
    cases hout : around actions scope with
    | some outer =>
      have hless := h.outside scope outer hout
      obtain ⟨line, hline⟩ := ih outer hless (Nat.lt_trans hless hscope)
      exact ⟨_, .inside hout hline⟩
    | none =>
      cases scope with
      | zero => exact ⟨_, .outermost⟩
      | succ index =>
        rw [around, Option.map_eq_none_iff, List.getElem?_eq_none_iff] at hout
        have hlength := h.length
        omega

theorem valueFrom_of_lineage (h : d.Follows actions) (hline : Lineage actions scope line)
    (hscope : scope < d.scopes.length) {depth : Nat} (hdepth : scope < depth) (name : String) :
    d.valueFrom name depth scope = (line.findSome? (lastSet actions · name)).getD "" := by
  induction hline generalizing depth with
  | outermost =>
    obtain ⟨depth, rfl⟩ := Nat.exists_eq_add_one.2 hdepth
    rw [valueFrom_succ hscope, h.values, h.parent, List.findSome?_singleton]
    rfl
  | @inside scope outer line next rest ih =>
    have hless := h.outside scope outer next
    obtain ⟨depth, rfl⟩ := Nat.exists_eq_add_one.2 (Nat.zero_lt_of_lt hdepth)
    have hdepth : outer < depth := by omega
    have houter := ih (Nat.lt_trans hless hscope) hdepth
    rw [valueFrom_succ hscope, h.values, h.parent, next, Option.elim_some, houter,
      List.findSome?_cons]
    cases lastSet actions scope name with
    | some value => rfl
    | none => rfl

theorem value_of_lineage (h : d.Follows actions) (hline : Lineage actions scope line)
    (hscope : scope < d.scopes.length) (name : String) :
    d.value scope name = (line.findSome? (lastSet actions · name)).getD "" :=
  valueFrom_of_lineage h hline hscope hscope name

/-- A scope that is the first in a list to have a value decides it, and no other scope does. -/
theorem findSome?_decides (line : List Nat) (f : Nat → Option String) (scope : Nat)
    (value : String) :
    ((scope ∈ line ∧ ∀ nearer ∈ line.takeWhile (· ≠ scope), f nearer = none) →
        line.findSome? (fun s => if scope = s then some value else f s) = some value) ∧
      (¬ (scope ∈ line ∧ ∀ nearer ∈ line.takeWhile (· ≠ scope), f nearer = none) →
        line.findSome? (fun s => if scope = s then some value else f s) = line.findSome? f) := by
  induction line with
  | nil => simp
  | cons first rest ih =>
    by_cases hfirst : first = scope
    · simp [hfirst]
    · have htake : (first :: rest).takeWhile (· ≠ scope) = first :: rest.takeWhile (· ≠ scope) :=
        List.takeWhile_cons_of_pos (by simpa using hfirst)
      rw [htake, List.forall_mem_cons, List.findSome?_cons, List.findSome?_cons,
        if_neg (Ne.symm hfirst), List.mem_cons]
      cases hvalue : f first with
      | some found => simp
      | none => simpa [Ne.symm hfirst] using ih

theorem lineage_set (hline : Lineage actions scope line) (at' : Nat) (name value : String) :
    Lineage (actions ++ [.set at' name value]) scope line := by
  induction hline with
  | outermost => exact .outermost
  | inside next rest ih => exact .inside (by rwa [around_set]) ih

theorem value_setValue_eq (h : d.Follows actions) (hline : Lineage actions scope line)
    (hscope : scope < d.scopes.length) {target : Nat} (htarget : target < d.scopes.length)
    (name value sought : String) :
    (d.setValue target name value).value scope sought =
      (line.findSome? fun s =>
        if target = s ∧ name = sought then some value else lastSet actions s sought).getD "" := by
  have hthere : scope < (d.setValue target name value).scopes.length := by
    rwa [length_setValue]
  rw [value_of_lineage (follows_setValue h htarget name value)
    (lineage_set hline target name value) hthere]
  simp only [lastSet_set]

/-- A scope sees a new value that decides what it sees of the name. -/
theorem value_setValue_of_decides (h : d.Follows actions) (hline : Lineage actions scope line)
    (hscope : scope < d.scopes.length) {target : Nat} (htarget : target < d.scopes.length)
    (value : String) (hdecides : Decides actions line name target) :
    (d.setValue target name value).value scope name = value := by
  rw [value_setValue_eq h hline hscope htarget]
  simp only [and_true]
  rw [(findSome?_decides line (lastSet actions · name) target value).1 hdecides]
  rfl

/-- Any other new value changes nothing in a scope. -/
theorem value_setValue_of_not_decides (h : d.Follows actions) (hline : Lineage actions scope line)
    (hscope : scope < d.scopes.length) {target : Nat} (htarget : target < d.scopes.length)
    {sought : String} (value : String)
    (hnot : ¬ (sought = name ∧ Decides actions line name target)) :
    (d.setValue target name value).value scope sought = d.value scope sought := by
  rw [value_setValue_eq h hline hscope htarget, value_of_lineage h hline hscope]
  by_cases hname : name = sought
  · subst hname
    simp only [and_true]
    rw [(findSome?_decides line (lastSet actions · name) target value).2
      fun hdecides => hnot ⟨rfl, hdecides⟩]
  · simp only [hname, and_false, if_false]

/-- After any actions on scopes that are there, the value of a name in a scope is the one that was
set last in the nearest scope of its lineage that has one, or empty, and a section has the scopes
that were added to it. Setting a value then changes no section, and no value but that of its name
in the scopes whose lineage has no nearer value for it. -/
theorem value_of_actions (rootName : String) {actions : List Action} (h : Possible 1 actions) :
    let d := (root rootName).actAll actions
    d.scopes.length = (added actions).length + 1 ∧
      ∀ scope < d.scopes.length, ∃ line, Lineage actions scope line ∧
        (∀ other, Lineage actions scope other → other = line) ∧
        (∀ name, d.value scope name = (line.findSome? (lastSet actions · name)).getD "") ∧
        (∀ name, d.sections scope name = addedTo actions scope name) ∧
        ∀ target < d.scopes.length, ∀ name value,
          (∀ inner, (d.setValue target name value).sections scope inner =
            d.sections scope inner) ∧
          (Decides actions line name target →
            (d.setValue target name value).value scope name = value) ∧
          ∀ sought, ¬ (sought = name ∧ Decides actions line name target) →
            (d.setValue target name value).value scope sought = d.value scope sought := by
  intro d
  have hfollows : d.Follows actions := follows_actAll (follows_root rootName) h
  refine ⟨hfollows.length, ?_⟩
  intro scope hscope
  obtain ⟨line, hline⟩ := exists_lineage hfollows hscope
  refine ⟨line, hline, fun _ => lineage_unique hline, value_of_lineage hfollows hline hscope,
    hfollows.sections scope, ?_⟩
  intro target htarget name value
  exact ⟨fun _ => sections_setValue value,
    value_setValue_of_decides hfollows hline hscope htarget value,
    fun _ => value_setValue_of_not_decides hfollows hline hscope htarget value⟩

/-- A value that is set anew outside of a scope with a value of its own, whose scopes do not see
it; another scope does. -/
theorem value_of_actions_shadowed :
    let actions : List Action := [.set 0 "X" "a", .add 0 "S", .add 1 "T", .set 1 "X" "b",
      .add 0 "S", .set 0 "X" "c", .set 3 "Y" "y"]
    let d := (root "").actAll actions
    Possible 1 actions ∧ Lineage actions 2 [2, 1, 0] ∧ Lineage actions 3 [3, 0] ∧
      d.value 2 "X" = "b" ∧ d.value 3 "X" = "c" ∧ d.value 2 "Y" = "" ∧
      d.sections 0 "S" = [1, 3] ∧
      (d.setValue 0 "X" "z").value 2 "X" = "b" ∧ (d.setValue 0 "X" "z").value 3 "X" = "z" := by
  intro actions d
  have hpossible : Possible 1 actions := by simp [Possible, actions]
  obtain ⟨hlength, hall⟩ := value_of_actions "" hpossible
  have htwo : Lineage actions 2 [2, 1, 0] := .inside rfl (.inside rfl .outermost)
  have hthree : Lineage actions 3 [3, 0] := .inside rfl .outermost
  have hcount : d.scopes.length = 4 := hlength
  obtain ⟨line, -, hline, hvalue, -, hset⟩ := hall 2 (by rw [hcount]; decide)
  obtain ⟨line', -, hline', hvalue', -, hset'⟩ := hall 3 (by rw [hcount]; decide)
  cases hline _ htwo
  cases hline' _ hthree
  obtain ⟨-, -, -, -, hsections, -⟩ := hall 0 (by rw [hcount]; decide)
  have hzero : 0 < d.scopes.length := by rw [hcount]; decide
  have hhidden := (hset 0 hzero "X" "z").2.2 "X" (by simp [Decides, lastSet, valuesSet, actions])
  have hseen := (hset' 0 hzero "X" "z").2.1 (by simp [Decides, lastSet, valuesSet, actions])
  refine ⟨hpossible, htwo, hthree, ?_, ?_, ?_, hsections "S", ?_, hseen⟩
  · rw [hvalue]
    rfl
  · rw [hvalue']
    rfl
  · rw [hvalue]
    rfl
  · rw [hhidden, hvalue]
    rfl

end Lookup

end FluentGen.Dictionary
