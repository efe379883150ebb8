import FluentGen.CommandLine.Run
import FluentGen.Proofs.Store.Writes
import FluentGen.Proofs.TypeMap.Sharing

/-!
What a failed run leaves behind. Everything is generated before the first file is written, so a run
that fails until then has changed nothing, except for what a compiler changes that takes the name of
a file for an option. The files are written one after the other and none of them is taken back, so a
run that fails at one of them leaves those before it with their new texts.
-/

namespace FluentGen.CommandLine

open Schema (Compiler Selection)
open Store (Output Written)

namespace Run

variable {α β : Type}

/-- A step that leaves the files as they are, whether it succeeds or fails. -/
def LeavesFiles (step : Run α) : Prop :=
  ∀ session, (step.run.run session).2.store = session.store

namespace LeavesFiles

theorem lift (result : Except Failure α) : LeavesFiles (Run.lift result) :=
  fun _ => rfl

theorem pure (a : α) : LeavesFiles (Pure.pure a) :=
  fun _ => rfl

theorem log (records : List LogRecord) : LeavesFiles (Run.log records) :=
  fun _ => rfl

theorem get : LeavesFiles (MonadState.get : Run Session) :=
  fun _ => rfl

/-- Steps that leave the files as they are do not show in the files that are left in the end. -/
theorem store_bind {step : Run α} {next : α → Run β} (hnext : ∀ a, LeavesFiles (next a))
    (session : Session) :
    ((step >>= next).run.run session).2.store = (step.run.run session).2.store := by
  rw [run_bind]
  split
  · next a between heq =>
    rw [heq]
    exact hnext a between
  · next heq => rw [heq]

theorem bind {step : Run α} {next : α → Run β} (hstep : LeavesFiles step)
    (hnext : ∀ a, LeavesFiles (next a)) : LeavesFiles (step >>= next) :=
  fun session => (store_bind hnext session).trans (hstep session)

theorem generate (step : Emit α) : LeavesFiles (Run.generate step) :=
  .bind (.log _) fun _ => .lift _

theorem readText (name : String) : LeavesFiles (Run.readText name) :=
  .bind .get fun _ => .lift _

end LeavesFiles

end Run

open Run (LeavesFiles)

section Compilers

/-- A name that a compiler takes for an option, or for a file of options. -/
def isOption (file : String) : Bool :=
  Text.startsWith "-" file || Text.startsWith "@" file

/-- A compiler that writes its output and no other file, as long as it is not handed an option in the
place of a file. -/
def WritesOutputOnly (compiler : Compiler) : Prop :=
  ∀ importPaths files, (∀ file ∈ files, isOption file = false) →
    ∀ store, (compiler.call (compiler.arguments importPaths files) store).2 = store

/-- The files that a compiler leaves in a run. -/
def compiledStore (compiler : Compiler) (s : Settings) (store : Store) : Store :=
  (compiler.call (compiler.arguments s.importPaths (Selection.listedFiles s.selection)) store).2

/-- The files when the schema has been loaded: those from before, or those that the compiler leaves if
it is called. -/
def LeftByLoading (compiler : Compiler) (s : Settings) (before after : Store) : Prop :=
  after = before ∨ s.descriptorSet = none ∧ after = compiledStore compiler s before

/-- The files are those that a compiler leaves, and the arguments have handed it an option in the place
of a file. -/
def ChangedByOption (compiler : Compiler) (arguments : List String) (before after : Store) : Prop :=
  ∃ a s, Arguments.ofTexts arguments = .ok a ∧ settingsOf a = .ok s ∧ s.descriptorSet = none ∧
    (∃ file ∈ Selection.listedFiles s.selection, isOption file = true) ∧
    after = compiledStore compiler s before

variable {compiler : Compiler} {s : Settings}

/-- Loading the schema has changed nothing, unless an option has been handed to the compiler. -/
theorem LeftByLoading.cases (hcompiler : WritesOutputOnly compiler) {arguments : List String}
    {a : Arguments} (ha : Arguments.ofTexts arguments = .ok a) (hs : settingsOf a = .ok s)
    {before after : Store} (h : LeftByLoading compiler s before after) :
    after = before ∨ ChangedByOption compiler arguments before after := by
  rcases h with hkept | ⟨hset, hcompiled⟩
  · exact Or.inl hkept
  · by_cases hoption : ∃ file ∈ Selection.listedFiles s.selection, isOption file = true
    · exact Or.inr ⟨a, s, ha, hs, hset, hoption, hcompiled⟩
    · left
      rw [hcompiled]
      refine hcompiler _ _ ?_ before
      simpa using hoption

end Compilers

section Files

variable {session session' : Session}

end Files

section Blocked

theorem report_of_failure {compiler : Compiler} (useColor : Bool) {arguments : List String}
    {store : Store} {a : Arguments} {s : Settings} {failure : Failure}
    (ha : Arguments.ofTexts arguments = .ok a) (hs : settingsOf a = .ok s)
    (hfailed : ((generateFiles compiler s).run.run { store }).1 = .error failure)
    (hreported : failure.isReported = true) :
    (run useColor arguments store compiler).outcome = .finished false ∧
      (run useColor arguments store compiler).store =
        ((generateFiles compiler s).run.run { store }).2.store := by
  have hsteps :
      (do generateFiles compiler (← Run.lift (settingsOf a)) : Run Unit).run.run { store } =
        (generateFiles compiler s).run.run { store } := by
    rw [hs]
    rfl
  unfold run
  rw [ha]
  dsimp only
  unfold runWith
  dsimp only
  rw [hsteps]
  generalize (generateFiles compiler s).run.run { store } = ended at hfailed ⊢
  obtain ⟨result, session⟩ := ended
  obtain rfl : result = .error failure := hfailed
  dsimp only
  rw [if_pos hreported]
  exact ⟨rfl, rfl⟩

/-- A run that generates all code, writes its header, and fails at its source. -/
structure FailsAtSource (compiler : Compiler) (arguments : List String) (store : Store)
    (s : Settings) : Prop where
  settings : (Arguments.ofTexts arguments).toOption.map settingsOf = some (.ok s)
  ends : ((generateFiles compiler s).run.run { store }).1 = .error (.unwritableFile s.source) ∧
    (((generateFiles compiler s).run.run { store }).2.store.bytes
      (Path.ofText s.header)).toOption.isSome = true

namespace FailsAtSource

variable {compiler : Compiler} {arguments : List String} {store : Store} {s : Settings}

theorem settingsOf_eq (h : FailsAtSource compiler arguments store s) {a : Arguments}
    (ha : Arguments.ofTexts arguments = .ok a) : settingsOf a = .ok s := by
  have hsettings := h.settings
  rw [ha] at hsettings
  exact Option.some.inj hsettings

theorem report (h : FailsAtSource compiler arguments store s) :
    (run false arguments store compiler).outcome = .finished false ∧
      ((run false arguments store compiler).store.bytes (Path.ofText s.header)).toOption.isSome =
        true := by
  obtain ⟨a, ha⟩ : ∃ a, Arguments.ofTexts arguments = .ok a := by
    cases ha : Arguments.ofTexts arguments with
    | ok a => exact ⟨a, rfl⟩
    | error ending =>
      have hsettings := h.settings
      rw [ha] at hsettings
      cases hsettings
  obtain ⟨houtcome, hstore⟩ := report_of_failure false ha (h.settingsOf_eq ha) h.ends.1 rfl
  exact ⟨houtcome, hstore ▸ h.ends.2⟩

end FailsAtSource

end Blocked

end FluentGen.CommandLine
