import FluentGen.Proofs.Emit.Lines
import FluentGen.Proofs.TypeMap.Reload
import FluentGen.TypeMap.Shared

/-!
Runs of calls on the shared type map. What is loaded at any time is told by what has happened so
far: it is the answer that has been given since the type map was last forgotten, if there has been
one. A call that fails therefore leaves no trace.
-/

namespace FluentGen.TypeMap

/-- The entries that every run starts from keep the rules. -/
theorem keepsRules_builtin : KeepsRules builtin := by
  have hentries : ∀ e ∈ Builtin.entries, brokenRule? e.1 e.2 = none := by decide +kernel
  intro e he
  exact hentries e (KeyMap.mem_ofList he)

theorem accept_builtin : accept builtin = .ok (file builtin) := by
  rw [accept, verifyEntries_eq_ok_iff.2 keepsRules_builtin]
  rfl

namespace Shared

/-- A use of the shared type map. The files may have changed since the call before. -/
inductive Call where
  | forget
  | ask (store : Store) (custom : Option Path)

/-- What happens in a call. -/
inductive Event where
  | forgotten
  | answered (answer : Except Failure TypeMap)

variable {shared : Shared} {past : List Event} {map : TypeMap}

def after (shared : Shared) : Call → Shared
  | .forget => {}
  | .ask store custom => shared.afterAsking (shared.ask store custom)

def event (shared : Shared) : Call → Event
  | .forget => .forgotten
  | .ask store custom => .answered (shared.ask store custom).result

/-- What is loaded after a run of calls. -/
def afterAll (shared : Shared) (calls : List Call) : Shared :=
  calls.foldl after shared

/-- What happens in a run of calls. -/
def history (shared : Shared) : List Call → List Event
  | [] => []
  | call :: rest => event shared call :: history (after shared call) rest

/-- A type map has been given as an answer, and nothing has been forgotten since. -/
def Given (past : List Event) (map : TypeMap) : Prop :=
  ∃ before since, past = before ++ .answered (.ok map) :: since ∧ .forgotten ∉ since

/-- The answer of a call that finds nothing loaded: the type map of a text, with a custom file of
the store on top. -/
def loadFile (text : String) (store : Store) : (custom : Option Path) → Except Failure TypeMap
  | none => load text
  | some path => do load text (some (← store.text path))

theorem ext {first second : Shared} (h : first.loaded = second.loaded) : first = second := by
  cases first
  cases second
  cases h
  rfl

section Given

theorem not_given_nil : ¬ Given [] map := by
  rintro ⟨before, since, h, -⟩
  exact List.cons_ne_nil _ _ (List.append_eq_nil_iff.1 h.symm).2

/-- What the last event does to the answer that has been given. -/
theorem given_concat_iff {e : Event} :
    Given (past ++ [e]) map ↔ e = .answered (.ok map) ∨ (e ≠ .forgotten ∧ Given past map) := by
  constructor
  · rintro ⟨before, since, h, hsince⟩
    rcases List.eq_nil_or_concat since with rfl | ⟨since, last, rfl⟩
    · obtain ⟨-, hlast⟩ := List.append_inj' h rfl
      exact Or.inl (List.cons.inj hlast).1
    · rw [List.concat_eq_append] at h hsince
      rw [← List.cons_append, ← List.append_assoc] at h
      obtain ⟨hpast, hlast⟩ := List.append_inj' h rfl
      rw [List.mem_append, not_or, List.mem_singleton] at hsince
      refine Or.inr ⟨?_, before, since, hpast, hsince.1⟩
      rw [(List.cons.inj hlast).1]
      exact fun heq => hsince.2 heq.symm
  · rintro (rfl | ⟨hkept, before, since, rfl, hsince⟩)
    · exact ⟨past, [], rfl, List.not_mem_nil⟩
    · refine ⟨before, since ++ [e], List.append_assoc _ _ _, ?_⟩
      rw [List.mem_append, not_or, List.mem_singleton]
      exact ⟨hsince, fun heq => hkept heq.symm⟩

end Given

section Step

theorem result_ask_of_loaded (h : shared.loaded = some map) (store : Store)
    (custom : Option Path) : (shared.ask store custom).result = .ok map := by
  unfold ask
  rw [h]
  cases custom with
  | none => rfl
  | some path => rfl

/-- What has been loaded is given again without a look at the files. -/
theorem ask_congr_of_loaded (h : shared.loaded = some map) (store other : Store)
    (custom : Option Path) : shared.ask store custom = shared.ask other custom := by
  unfold ask
  rw [h]

theorem ask_of_not_loaded (h : shared.loaded = none) (store : Store) (custom : Option Path) :
    shared.ask store custom = loadFrom store custom := by
  unfold ask
  rw [h]

theorem result_loadFrom {text : String} (hbuiltin : ofText false text = .ok builtin)
    (store : Store) (custom : Option Path) :
    (loadFrom store custom).result = loadFile text store custom := by
  have hload : ∀ custom, load text custom = acceptWith builtin custom := by
    intro custom
    rw [load, hbuiltin]
    rfl
  cases custom with
  | none => exact (hload none).symm
  | some path =>
    simp only [loadFrom, loadFile, Emit.result_bind, hload]
    rfl

/-- What is loaded is what has been given. -/
def Remembers (shared : Shared) (past : List Event) : Prop :=
  ∀ map, shared.loaded = some map ↔ Given past map

theorem loaded_after_ask (store : Store) (custom : Option Path) :
    (after shared (.ask store custom)).loaded =
      match (shared.ask store custom).result with
      | .ok map => some map
      | .error _ => shared.loaded := by
  rw [after, afterAsking]
  cases (shared.ask store custom).result with
  | ok map => rfl
  | error failure => rfl

theorem remembers_after (h : Remembers shared past) (call : Call) :
    Remembers (after shared call) (past ++ [event shared call]) := by
  intro map
  rw [given_concat_iff, ← h map]
  cases call with
  | forget => simp [after, event]
  | ask store custom =>
    rw [loaded_after_ask, event]
    cases hloaded : shared.loaded with
    | some old =>
      rw [result_ask_of_loaded hloaded]
      simp
    | none =>
      cases (shared.ask store custom).result with
      | ok new => simp
      | error failure => simp

end Step

section Run

theorem afterAll_concat (shared : Shared) (calls : List Call) (call : Call) :
    afterAll shared (calls ++ [call]) = after (afterAll shared calls) call :=
  List.foldl_append

theorem remembers_afterAll (h : Remembers shared past) (calls : List Call) :
    Remembers (afterAll shared calls) (past ++ history shared calls) := by
  induction calls generalizing shared past with
  | nil =>
    rw [history, List.append_nil]
    exact h
  | cons call rest ih =>
    have hrest := ih (remembers_after h call)
    rw [List.append_assoc] at hrest
    exact hrest

theorem remembers_start (calls : List Call) : Remembers (afterAll {} calls) (history {} calls) := by
  have hnew : Remembers {} [] := by
    intro map
    constructor
    · intro h
      cases h
    · intro h
      exact absurd h not_given_nil
  exact remembers_afterAll hnew calls

end Run

/-- After any run of calls, an answer that has been given and not been forgotten is given again, and
no file is looked at. Without one the built-in text is loaded with the custom file on top, and if
that fails the run is where it began. -/
theorem answer_after_calls {text : String} (hbuiltin : ofText false text = .ok builtin)
    (calls : List Call) (store : Store) (custom : Option Path) :
    (∀ map, Given (history {} calls) map →
        ((afterAll {} calls).ask store custom).result = .ok map ∧
          ∀ other, (afterAll {} calls).ask store custom = (afterAll {} calls).ask other custom) ∧
      ((¬ ∃ map, Given (history {} calls) map) →
        ((afterAll {} calls).ask store custom).result = loadFile text store custom) ∧
      ∀ failure, ((afterAll {} calls).ask store custom).result = .error failure →
        afterAll {} (calls ++ [.ask store custom]) = {} := by
  have hremembers := remembers_start calls
  refine ⟨?_, ?_, ?_⟩
  · intro map hgiven
    have hloaded := (hremembers map).2 hgiven
    exact ⟨result_ask_of_loaded hloaded store custom,
      fun other => ask_congr_of_loaded hloaded store other custom⟩
  · intro hnone
    have hloaded : (afterAll {} calls).loaded = none := by
      rw [Option.eq_none_iff_forall_ne_some]
      intro map h
      exact hnone ⟨map, (hremembers map).1 h⟩
    rw [ask_of_not_loaded hloaded, result_loadFrom hbuiltin]
  · intro failure hfailure
    have hloaded : (afterAll {} calls).loaded = none := by
      cases hold : (afterAll {} calls).loaded with
      | none => rfl
      | some map =>
        rw [result_ask_of_loaded hold] at hfailure
        cases hfailure
    rw [afterAll_concat]
    refine Shared.ext ?_
    rw [loaded_after_ask, hfailure]
    exact hloaded

/-- A custom file that is missing is asked for first, then the type map without it, and then the file
that is still missing again. -/
theorem answer_after_calls_missing :
    let custom : Option Path := some ⟨"", ["missing"]⟩
    let missing : Call := .ask {} custom
    ofText false builtin.render = .ok builtin ∧
      afterAll {} [missing] = {} ∧
      ((afterAll {} [missing]).ask {} none).result = load builtin.render ∧
      Given (history {} [missing, .ask {} none]) (file builtin) ∧
      ((afterAll {} [missing, .ask {} none]).ask {} custom).result = .ok (file builtin) := by
  intro custom missing
  have hbuiltin : ofText false builtin.render = .ok builtin := ofText_render false builtin
  have hfirst : history {} [missing] = [] ++ [.answered (.error (.unreadableFile "missing"))] := rfl
  have hnone : ¬ ∃ map, Given (history {} [missing]) map := by
    rintro ⟨map, h⟩
    rw [hfirst, given_concat_iff] at h
    rcases h with h | ⟨-, h⟩
    · cases h
    · exact not_given_nil h
  have hsecond : history {} [missing, .ask {} none] =
      [.answered (.error (.unreadableFile "missing"))] ++ [.answered (.ok (file builtin))] := by
    rw [← accept_builtin]
    rfl
  have hgiven : Given (history {} [missing, .ask {} none]) (file builtin) := by
    rw [hsecond, given_concat_iff]
    exact Or.inl rfl
  refine ⟨hbuiltin, ?_, (answer_after_calls hbuiltin _ {} none).2.1 hnone, hgiven, ?_⟩
  · exact (answer_after_calls hbuiltin [] {} custom).2.2 (.unreadableFile "missing") rfl
  · exact ((answer_after_calls hbuiltin _ {} custom).1 _ hgiven).1

end Shared

end FluentGen.TypeMap
