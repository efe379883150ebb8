import FluentGen.Proofs.Except
import FluentGen.Store.Basic

/-!
What writing files leaves behind, by location. Folders stay folders, and no file changes but those
that have been written. A path that leads somewhere leads there afterwards too, so it can be told
from the store at the end of many writes which files they were about.
-/

namespace FluentGen.Store

variable {before between after store : Store} {path : Path}

/-- The bytes of the file at a location. -/
def file? (store : Store) (location : List String) : Option (List UInt8) :=
  match store.node? location with
  | some (.file bytes) => some bytes
  | _ => none

/-- Bytes that are the ones of a text, or that are read as the text. -/
def Holds (bytes : List UInt8) (text : String) : Prop :=
  bytes = Text.utf8 text ∨ (Text.ofUtf8? bytes).map Text.universalNewlines = some text

section Folders

/-- Whatever is a folder stays one. -/
def KeepsFolders (before after : Store) : Prop :=
  ∀ location, before.node? location = some .folder → after.node? location = some .folder

theorem KeepsFolders.refl (store : Store) : KeepsFolders store store :=
  fun _ h => h

theorem KeepsFolders.trans (hfirst : KeepsFolders before between)
    (hsecond : KeepsFolders between after) : KeepsFolders before after :=
  fun location h => hsecond location (hfirst location h)

theorem KeepsFolders.follow? (h : KeepsFolders before after) {parts location found : List String}
    (hfound : before.follow? location parts = some found) :
    after.follow? location parts = some found := by
  induction parts generalizing location with
  | nil => exact hfound
  | cons part rest ih =>
    unfold Store.follow? at hfound ⊢
    split at hfound
    · next hup =>
      rw [if_pos hup]
      exact ih hfound
    · next hdown =>
      rw [if_neg hdown]
      split at hfound
      · next hfolder =>
        rw [h _ hfolder]
        exact ih hfound
      · cases hfound

/-- Where folders stay, a path keeps leading to where it has led. -/
theorem KeepsFolders.locate? (h : KeepsFolders before after) {location : List String}
    (hlocated : before.locate? path = some location) : after.locate? path = some location := by
  unfold Store.locate? at hlocated ⊢
  split at hlocated
  · exact hlocated
  · obtain ⟨folder, hfolder, hname⟩ := Option.bind_eq_some_iff.1 hlocated
    exact Option.bind_eq_some_iff.2 ⟨folder, h.follow? hfolder, hname⟩

theorem isGiven_of_ne_folder {location : List String}
    (h : store.node? location ≠ some .folder) : isGiven location = false := by
  cases hgiven : isGiven location with
  | false => rfl
  | true =>
    refine absurd ?_ h
    rw [node?, if_pos hgiven]

theorem file?_put {location : List String} (h : isGiven location = false) (node : Node)
    (other : List String) :
    (store.put location node).file? other =
      if other = location then
        match node with
        | .file bytes => some bytes
        | .folder => none
      else store.file? other := by
  unfold file?
  rw [node?_put _ _ _ _ h]
  by_cases hother : other = location
  · rw [if_pos hother, if_pos hother]
    cases node with
    | file bytes => rfl
    | folder => rfl
  · rw [if_neg hother, if_neg hother]

theorem keepsFolders_put {location : List String} {node : Node}
    (h : store.node? location ≠ some .folder) : KeepsFolders store (store.put location node) := by
  intro other hother
  have hne : other ≠ location := fun heq => h (heq ▸ hother)
  rw [node?_put _ _ _ _ (isGiven_of_ne_folder h), if_neg hne]
  exact hother

/-- Making folders on the way leads to them, and leaves all files as they are. -/
theorem makeFolders_spec (store : Store) (location parts : List String) :
    KeepsFolders store (store.makeFolders location parts).1 ∧
    (∀ other, (store.makeFolders location parts).1.file? other = store.file? other) ∧
    ∀ folder, (store.makeFolders location parts).2 = some folder →
      (store.makeFolders location parts).1.follow? location parts = some folder := by
  induction parts generalizing store location with
  | nil => exact ⟨KeepsFolders.refl store, fun _ => rfl, fun _ h => h⟩
  | cons part rest ih =>
    unfold makeFolders Store.follow?
    by_cases hup : part = ".."
    · rw [if_pos hup]
      simp only [if_pos hup]
      exact ih store (above location)
    · rw [if_neg hup]
      simp only [if_neg hup]
      cases hnode : store.node? (location ++ [part]) with
      | none =>
        have hfree : store.node? (location ++ [part]) ≠ some .folder := by simp [hnode]
        have hgiven := isGiven_of_ne_folder hfree
        obtain ⟨hkeeps, hfiles, hleads⟩ :=
          ih (store.put (location ++ [part]) .folder) (location ++ [part])
        refine ⟨(keepsFolders_put hfree).trans hkeeps, ?_, ?_⟩
        · intro other
          rw [hfiles other, file?_put hgiven]
          split
          · next heq => rw [heq, file?, hnode]
          · rfl
        · intro folder hfolder
          have hmade := hkeeps (location ++ [part])
            (by rw [node?_put _ _ _ _ hgiven, if_pos rfl])
          simp only [hmade]
          exact hleads folder hfolder
      | some node =>
        cases node with
        | file bytes => exact ⟨KeepsFolders.refl store, fun _ => rfl, fun _ h => by cases h⟩
        | folder =>
          obtain ⟨hkeeps, hfiles, hleads⟩ := ih store (location ++ [part])
          refine ⟨hkeeps, hfiles, ?_⟩
          intro folder hfolder
          simp only [hkeeps _ hnode]
          exact hleads folder hfolder

end Folders

section Write

/-- The store with the folders around a file made. -/
def withFolders (store : Store) (path : Path) : Store :=
  (store.makeFolders (start path) path.parts.dropLast).1

/-- Where a file gets written, if no file is in the way of its folders. -/
def target? (store : Store) (path : Path) : Option (List String) := do
  let name ← path.parts.getLast?
  if name = ".." then none
  else return (← (store.makeFolders (start path) path.parts.dropLast).2) ++ [name]

theorem run_write (path : Path) (bytes : List UInt8) (store : Store) :
    (write path bytes).run.run store =
      match store.target? path with
      | none => (.error (.unwritableFile path.text), store.withFolders path)
      | some location =>
        match (store.withFolders path).node? location with
        | some .folder => (.error (.unwritableFile path.text), store.withFolders path)
        | _ => (.ok (), (store.withFolders path).put location (.file bytes)) := by
  have hrun : (write path bytes).run.run store =
      (match store.target? path with
        | none => throw (.unwritableFile path.text)
        | some location =>
          match (store.withFolders path).node? location with
          | some .folder => throw (.unwritableFile path.text)
          | _ => set ((store.withFolders path).put location (.file bytes)) : Step Unit).run.run
        (store.withFolders path) := rfl
  rw [hrun]
  cases store.target? path with
  | none => rfl
  | some location =>
    dsimp only
    generalize (store.withFolders path).node? location = node
    rcases node with _ | _ | _ <;> rfl

theorem keepsFolders_withFolders (store : Store) (path : Path) :
    KeepsFolders store (store.withFolders path) :=
  (makeFolders_spec store _ _).1

theorem file?_withFolders (store : Store) (path : Path) (location : List String) :
    (store.withFolders path).file? location = store.file? location :=
  (makeFolders_spec store _ _).2.1 location

theorem locate?_of_target? {location : List String} (h : store.target? path = some location) :
    (store.withFolders path).locate? path = some location := by
  obtain ⟨name, hname, h⟩ := Option.bind_eq_some_iff.1 h
  split at h
  · cases h
  · next hdown =>
    obtain ⟨folder, hfolder, h⟩ := Option.bind_eq_some_iff.1 h
    unfold Store.locate?
    rw [hname]
    have hleads := (makeFolders_spec store _ _).2.2 folder hfolder
    refine Option.bind_eq_some_iff.2 ⟨folder, hleads, ?_⟩
    rw [if_neg hdown]
    exact h

/-- What a write that succeeds has done: there was a place for the file, and it was put there. -/
theorem exists_target_of_write {bytes : List UInt8}
    (h : (write path bytes).run.run before = (.ok (), after)) :
    ∃ location, before.target? path = some location ∧
      (before.withFolders path).node? location ≠ some .folder ∧
      after = (before.withFolders path).put location (.file bytes) := by
  rw [run_write] at h
  split at h
  · cases h
  · next location htarget =>
    split at h
    · cases h
    · next hfree => exact ⟨location, htarget, hfree, (Prod.mk.inj h).2.symm⟩

/-- A file that has been written is where its path leads to, and it is the only one that changes. -/
theorem write_ok {bytes : List UInt8} (h : (write path bytes).run.run before = (.ok (), after)) :
    KeepsFolders before after ∧ ∃ location, after.locate? path = some location ∧
      after.file? location = some bytes ∧
      ∀ other, other ≠ location → after.file? other = before.file? other := by
  obtain ⟨location, htarget, hfree, rfl⟩ := exists_target_of_write h
  have hmade := keepsFolders_withFolders before path
  have hput : KeepsFolders _ ((before.withFolders path).put location (.file bytes)) :=
    keepsFolders_put hfree
  have hgiven := isGiven_of_ne_folder hfree
  refine ⟨hmade.trans hput, location, hput.locate? (locate?_of_target? htarget), ?_, ?_⟩
  · rw [file?_put hgiven, if_pos rfl]
  · intro other hother
    rw [file?_put hgiven, if_neg hother, file?_withFolders]

/-- A write that fails changes no file, whatever folders it has made. -/
theorem write_error {bytes : List UInt8} {failure : Failure}
    (h : (write path bytes).run.run before = (.error failure, after)) :
    KeepsFolders before after ∧ ∀ other, after.file? other = before.file? other := by
  have hafter : after = before.withFolders path := by
    rw [run_write] at h
    split at h
    · exact (Prod.mk.inj h).2.symm
    · split at h
      · exact (Prod.mk.inj h).2.symm
      · cases h
  subst hafter
  exact ⟨keepsFolders_withFolders before path, file?_withFolders before path⟩

variable {text : String} {isNew : Bool}

/-- Writing a text and saying that it has been written. -/
theorem run_writeText_true :
    (do writeText path text; return true : Step Bool).run.run before = (.ok isNew, after) ↔
      isNew = true ∧ (writeText path text).run.run before = (.ok (), after) := by
  constructor
  · intro h
    obtain ⟨_, between, hwrite, hdone⟩ := exists_of_run_bind_ok h
    cases hdone
    exact ⟨rfl, hwrite⟩
  · rintro ⟨rfl, hwrite⟩
    rw [run_bind, hwrite]
    rfl

theorem run_writeIfChanged (path : Path) (text : String) (store : Store) :
    (writeIfChanged path text).run.run store =
      match store.find? path with
      | some (.file _) =>
        match store.text path with
        | .ok old =>
          if old = text then (.ok false, store)
          else (do writeText path text; return true : Step Bool).run.run store
        | .error failure => (.error failure, store)
      | _ => (do writeText path text; return true : Step Bool).run.run store := by
  have hread : (ExceptT.mk (pure (store.text path)) : Step String).run.run store =
      (store.text path, store) := rfl
  unfold writeIfChanged
  rw [run_bind]
  change (match store.find? path with
    | some (.file _) => _
    | _ => _ : Step Bool).run.run store = _
  rcases store.find? path with _ | _ | _
  · rfl
  · dsimp only
    rw [run_bind, hread]
    cases store.text path with
    | error failure => rfl
    | ok old =>
      by_cases hsame : old = text
      · simp only [if_pos hsame]
        rfl
      · simp only [if_neg hsame]
  · rfl

end Write

section Outputs

/-- A text and where it shall be written. -/
abbrev Output := Path × String

/-- Outputs have been written, one after the other, and no other file has changed. -/
structure Written (outputs : List Output) (before after : Store) : Prop where
  folders : KeepsFolders before after
  /-- Each output leads to a file, which holds the text of the output that has been written there
  last. -/
  held : ∀ o ∈ outputs, ∃ location bytes, after.locate? o.1 = some location ∧
    after.file? location = some bytes ∧
    ∃ last ∈ outputs, after.locate? last.1 = some location ∧ Holds bytes last.2
  others : ∀ location, (∀ o ∈ outputs, after.locate? o.1 ≠ some location) →
    after.file? location = before.file? location

namespace Written

variable {outputs more : List Output} {text : String}

theorem nil (hfolders : KeepsFolders before after)
    (hfiles : ∀ location, after.file? location = before.file? location) :
    Written [] before after where
  folders := hfolders
  held := by simp
  others := fun location _ => hfiles location

theorem append (hfirst : Written outputs before between) (hsecond : Written more between after) :
    Written (outputs ++ more) before after where
  folders := hfirst.folders.trans hsecond.folders
  held := by
    intro o ho
    rcases List.mem_append.1 ho with ho | ho
    · obtain ⟨location, bytes, hlocated, hbytes, last, hlast, hsame, hholds⟩ := hfirst.held o ho
      have hstays := hsecond.folders.locate? hlocated
      by_cases hagain : ∃ o ∈ more, after.locate? o.1 = some location
      · obtain ⟨again, hmem, hthere⟩ := hagain
        obtain ⟨_, new, hlocated, hnew, latest, hlatest⟩ := hsecond.held again hmem
        rw [hthere] at hlocated
        cases hlocated
        exact ⟨location, new, hstays, hnew, latest, List.mem_append_right _ hlatest.1, hlatest.2⟩
      · have hkept : after.file? location = some bytes := by
          rw [hsecond.others location fun o ho heq => hagain ⟨o, ho, heq⟩, hbytes]
        exact ⟨location, bytes, hstays, hkept, last, List.mem_append_left _ hlast,
          hsecond.folders.locate? hsame, hholds⟩
    · obtain ⟨location, bytes, hlocated, hbytes, last, hlast, hsame⟩ := hsecond.held o ho
      exact ⟨location, bytes, hlocated, hbytes, last, List.mem_append_right _ hlast, hsame⟩
  others := by
    intro location hno
    have hfirstNo : ∀ o ∈ outputs, between.locate? o.1 ≠ some location := fun o ho heq =>
      hno o (List.mem_append_left _ ho) (hsecond.folders.locate? heq)
    have hsecondNo : ∀ o ∈ more, after.locate? o.1 ≠ some location := fun o ho =>
      hno o (List.mem_append_right _ ho)
    rw [hsecond.others location hsecondNo, hfirst.others location hfirstNo]

end Written

theorem bytes_of_find? {bytes : List UInt8} (h : store.find? path = some (.file bytes)) :
    store.bytes path = .ok bytes := by
  unfold Store.bytes
  rw [h]

end Outputs

end FluentGen.Store
