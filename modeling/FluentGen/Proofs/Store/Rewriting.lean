import FluentGen.Proofs.Store.Writes
import FluentGen.Proofs.Text.Escape

/-!
When a file is written again. Whether it holds a text already is asked of its characters, with every
line break read as a line feed, while writing puts down the bytes of the text as they are. The two
views agree on texts without carriage returns. A file that has other line breaks than the text is
taken to hold it and is left alone, and a text with a carriage return is never found in a file, so
that it is written each time.
-/

namespace FluentGen

namespace Text

/-- What has been read has no carriage return. -/
theorem not_mem_readNewlines (chars : List Char) : '\r' ∉ readNewlines chars := by
  fun_induction readNewlines chars with
  | case1 => simp
  | case2 rest ih => simpa using ih
  | case3 rest _ ih => simpa using ih
  | case4 c rest _ hother ih =>
    have hc : '\r' ≠ c := fun heq => hother heq.symm
    simp [hc, ih]

theorem readNewlines_of_not_mem {chars : List Char} (h : '\r' ∉ chars) :
    readNewlines chars = chars := by
  fun_induction readNewlines chars with
  | case1 => rfl
  | case2 rest ih => simp at h
  | case3 rest _ ih => simp at h
  | case4 c rest _ _ ih => rw [ih fun hmem => h (List.mem_cons_of_mem c hmem)]

theorem not_mem_universalNewlines (text : String) : '\r' ∉ (universalNewlines text).toList := by
  rw [universalNewlines, String.toList_ofList]
  exact not_mem_readNewlines text.toList

/-- Reading leaves exactly the texts without carriage returns as they are. -/
theorem universalNewlines_eq_self_iff {text : String} :
    universalNewlines text = text ↔ '\r' ∉ text.toList := by
  constructor
  · intro h
    rw [← h]
    exact not_mem_universalNewlines text
  · intro h
    rw [universalNewlines, readNewlines_of_not_mem h, String.ofList_toList]

end Text

namespace Store

variable {before after store : Store} {path : Path}

section Again

/-- There is nothing to make where a path leads to folders already. -/
theorem makeFolders_of_follow? {location parts : List String} {folder : List String}
    (h : store.follow? location parts = some folder) :
    store.makeFolders location parts = (store, some folder) := by
  induction parts generalizing location with
  | nil =>
    cases h
    rfl
  | cons part rest ih =>
    unfold follow? at h
    unfold makeFolders
    split at h
    · next hup =>
      rw [if_pos hup]
      exact ih h
    · next hdown =>
      rw [if_neg hdown]
      split at h
      · next hfolder =>
        simp only [hfolder]
        exact ih h
      · cases h

@[simp] theorem put_put (store : Store) (location : List String) (node : Node) :
    (store.put location node).put location node = store.put location node := by
  simp [put, List.filter_filter]

theorem find?_of_file? {location : List String} {bytes : List UInt8}
    (hlocated : store.locate? path = some location) (hbytes : store.file? location = some bytes) :
    store.find? path = some (.file bytes) := by
  rw [find?, hlocated]
  unfold file? at hbytes
  split at hbytes
  · next hnode =>
    cases hbytes
    exact hnode
  · cases hbytes

theorem find?_of_write {bytes : List UInt8}
    (h : (write path bytes).run.run before = (.ok (), after)) :
    after.find? path = some (.file bytes) := by
  obtain ⟨-, location, hlocated, hbytes, -⟩ := write_ok h
  exact find?_of_file? hlocated hbytes

/-- Writing the same bytes once more succeeds and changes nothing. -/
theorem run_write_again {bytes : List UInt8}
    (h : (write path bytes).run.run before = (.ok (), after)) :
    (write path bytes).run.run after = (.ok (), after) := by
  obtain ⟨location, htarget, hfree, hafter⟩ := exists_target_of_write h
  obtain ⟨name, hname, htarget⟩ := Option.bind_eq_some_iff.1 htarget
  split at htarget
  · cases htarget
  next hdown =>
  obtain ⟨folder, hfolder, hlocation⟩ := Option.bind_eq_some_iff.1 htarget
  -- All folders are there now, so the way to the file leads to the same place and makes nothing.
  have hkeeps : KeepsFolders (before.withFolders path) after := hafter ▸ keepsFolders_put hfree
  have hmade : after.makeFolders (start path) path.parts.dropLast = (after, some folder) :=
    makeFolders_of_follow? (hkeeps.follow? ((makeFolders_spec before _ _).2.2 folder hfolder))
  have hagain : after.target? path = some location := by
    rw [target?, hname, hmade]
    simpa [hdown] using hlocation
  have hnode : after.node? location = some (.file bytes) := by
    rw [hafter, node?_put _ _ _ _ (isGiven_of_ne_folder hfree), if_pos rfl]
  have hput : after.put location (.file bytes) = after := by rw [hafter, put_put]
  rw [run_write, hagain, withFolders, hmade]
  simp only [hnode, hput]

end Again

section Reading

variable {text : String} {isNew : Bool}

/-- The file that a path leads to reads as a text. -/
def ReadsAs (store : Store) (path : Path) (text : String) : Prop :=
  ∃ old, store.find? path = some (.file (Text.utf8 old)) ∧ Text.universalNewlines old = text

theorem bytes_eq_ok_iff {bytes : List UInt8} :
    store.bytes path = .ok bytes ↔ store.find? path = some (.file bytes) := by
  constructor
  · intro h
    unfold Store.bytes at h
    split at h
    · next hfile =>
      cases h
      exact hfile
    · cases h
  · exact bytes_of_find?

theorem text_of_find? {bytes : List UInt8} (h : store.find? path = some (.file bytes)) :
    store.text path =
      match Text.ofUtf8? bytes with
      | some old => .ok (Text.universalNewlines old)
      | none => .error (.unreadableFile path.text) := by
  rw [Store.text, bytes_of_find? h]
  rfl

theorem text_eq_ok_iff : store.text path = .ok text ↔ store.ReadsAs path text := by
  constructor
  · intro h
    obtain ⟨bytes, hbytes, -⟩ := exists_of_bind_eq_ok h
    have hfile := bytes_eq_ok_iff.1 hbytes
    rw [text_of_find? hfile] at h
    split at h
    · next old hold => exact ⟨old, Text.ofUtf8?_eq_some_iff.1 hold ▸ hfile, Except.ok.inj h⟩
    · cases h
  · rintro ⟨old, hfile, rfl⟩
    rw [text_of_find? hfile, Text.ofUtf8?_eq_some_iff.2 rfl]

/-- What a path leads to can be read: there is no file, or its bytes are a text. -/
def IsReadable (store : Store) (path : Path) : Prop :=
  ∀ bytes, store.find? path = some (.file bytes) → ∃ old, bytes = Text.utf8 old

theorem run_of_readsAs (h : before.ReadsAs path text) :
    (writeIfChanged path text).run.run before = (.ok false, before) := by
  have htext := text_eq_ok_iff.2 h
  obtain ⟨old, hfile, -⟩ := h
  rw [run_writeIfChanged, hfile, htext]
  exact if_pos rfl

theorem run_of_not_readsAs (h : ¬ before.ReadsAs path text) (hreadable : before.IsReadable path) :
    (writeIfChanged path text).run.run before =
      (do writeText path text; return true : Step Bool).run.run before := by
  rw [run_writeIfChanged]
  split
  · next bytes hfile =>
    obtain ⟨old, rfl⟩ := hreadable bytes hfile
    rw [text_eq_ok_iff.2 ⟨old, hfile, rfl⟩]
    exact if_neg fun hread => h ⟨old, hfile, hread⟩
  · rfl

/-- A file whose bytes are no text is left alone. -/
theorem run_of_not_isReadable (h : ¬ before.IsReadable path) :
    (writeIfChanged path text).run.run before = (.error (.unreadableFile path.text), before) := by
  unfold IsReadable at h
  push Not at h
  obtain ⟨bytes, hfile, hno⟩ := h
  have hbytes : Text.ofUtf8? bytes = none := by
    rw [Option.eq_none_iff_forall_ne_some]
    exact fun old hold => hno old (Text.ofUtf8?_eq_some_iff.1 hold)
  have htext : before.text path = .error (.unreadableFile path.text) := by
    rw [text_of_find? hfile, hbytes]
  rw [run_writeIfChanged, hfile, htext]

/-- When a text is written that is written only where it is not read already, and the answer. -/
theorem writeIfChanged_eq_ok_iff :
    (writeIfChanged path text).run.run before = (.ok isNew, after) ↔
      before.ReadsAs path text ∧ isNew = false ∧ after = before ∨
      ¬ before.ReadsAs path text ∧ before.IsReadable path ∧ isNew = true ∧
        (writeText path text).run.run before = (.ok (), after) := by
  by_cases hreads : before.ReadsAs path text
  · rw [run_of_readsAs hreads]
    constructor
    · intro h
      cases h
      exact Or.inl ⟨hreads, rfl, rfl⟩
    · rintro (⟨-, rfl, rfl⟩ | ⟨hother, -⟩)
      · rfl
      · exact absurd hreads hother
  by_cases hreadable : before.IsReadable path
  · rw [run_of_not_readsAs hreads hreadable, run_writeText_true]
    constructor
    · exact fun h => Or.inr ⟨hreads, hreadable, h⟩
    · rintro (⟨h, -⟩ | ⟨-, -, h⟩)
      · exact absurd h hreads
      · exact h
  · rw [run_of_not_isReadable hreadable]
    constructor
    · intro h
      cases h
    · rintro (⟨h, -⟩ | ⟨-, h, -⟩)
      · exact absurd h hreads
      · exact absurd h hreadable

end Reading

section Rewriting

variable {text : String} {isNew : Bool}

theorem eq_of_find? {old : String} (hfile : store.find? path = some (.file (Text.utf8 text)))
    (hold : store.find? path = some (.file (Text.utf8 old))) : old = text := by
  rw [hfile] at hold
  exact (Text.utf8_injective (Node.file.inj (Option.some.inj hold))).symm

/-- The bytes of a text read as this text exactly if it has no carriage return. -/
theorem readsAs_iff_of_find? (hfile : store.find? path = some (.file (Text.utf8 text))) :
    store.ReadsAs path text ↔ '\r' ∉ text.toList := by
  rw [← Text.universalNewlines_eq_self_iff]
  constructor
  · rintro ⟨old, hold, hread⟩
    rwa [eq_of_find? hfile hold] at hread
  · exact fun hread => ⟨text, hfile, hread⟩

/-- A second call with the same text changes nothing, but one that has written a carriage return is
answered as if it did. -/
theorem run_writeIfChanged_again
    (h : (writeIfChanged path text).run.run before = (.ok isNew, after)) :
    (writeIfChanged path text).run.run after =
      (.ok (isNew && text.toList.contains '\r'), after) := by
  rcases writeIfChanged_eq_ok_iff.1 h with ⟨hreads, rfl, rfl⟩ | ⟨-, -, rfl, hwrite⟩
  · exact run_of_readsAs hreads
  · have hfile : after.find? path = some (.file (Text.utf8 text)) := find?_of_write hwrite
    by_cases hreads : after.ReadsAs path text
    · have hclean : text.toList.contains '\r' = false := by
        simpa using (readsAs_iff_of_find? hfile).1 hreads
      rw [run_of_readsAs hreads, hclean]
      rfl
    · have hreturn : text.toList.contains '\r' = true := by
        simpa using mt (readsAs_iff_of_find? hfile).2 hreads
      have hreadable : after.IsReadable path := by
        intro bytes hbytes
        rw [hfile] at hbytes
        cases hbytes
        exact ⟨text, rfl⟩
      rw [run_of_not_readsAs hreads hreadable, hreturn]
      exact run_writeText_true.2 ⟨rfl, run_write_again hwrite⟩

/-- What writing a text only if it differs is for: the file holds the bytes of the text, the answer
tells whether it has not held them before, and a second call finds nothing to do. -/
structure WritesIfDifferent (path : Path) (text : String) (before : Store) (isNew : Bool)
    (after : Store) : Prop where
  holds : after.find? path = some (.file (Text.utf8 text))
  answers : isNew = true ↔ before.find? path ≠ some (.file (Text.utf8 text))
  settles : ∃ last, (writeIfChanged path text).run.run after = (.ok false, last)

theorem writesIfDifferent_iff
    (h : (writeIfChanged path text).run.run before = (.ok isNew, after)) :
    WritesIfDifferent path text before isNew after ↔
      '\r' ∉ text.toList ∧ ∀ old, before.find? path = some (.file (Text.utf8 old)) →
        Text.universalNewlines old = text → '\r' ∉ old.toList := by
  have hagain := run_writeIfChanged_again h
  rcases writeIfChanged_eq_ok_iff.1 h with ⟨hreads, rfl, rfl⟩ | ⟨hother, -, rfl, hwrite⟩
  · obtain ⟨old, hfile, hread⟩ := hreads
    have hclean : '\r' ∉ text.toList := hread ▸ Text.not_mem_universalNewlines old
    constructor
    · intro hwrites
      refine ⟨hclean, fun other hsame _ => ?_⟩
      rwa [eq_of_find? hwrites.holds hsame]
    · rintro ⟨-, hall⟩
      have hsame : old = text := by
        rw [← hread, Text.universalNewlines_eq_self_iff.2 (hall old hfile hread)]
      subst hsame
      exact ⟨hfile, by simp [hfile], ⟨_, hagain⟩⟩
  · have hfile : after.find? path = some (.file (Text.utf8 text)) := find?_of_write hwrite
    constructor
    · intro hwrites
      obtain ⟨last, hlast⟩ := hwrites.settles
      rw [hagain] at hlast
      have hclean : '\r' ∉ text.toList := by simpa using (Prod.mk.inj hlast).1
      exact ⟨hclean, fun old hold hread => absurd ⟨old, hold, hread⟩ hother⟩
    · rintro ⟨hclean, -⟩
      have hdiffers : before.find? path ≠ some (.file (Text.utf8 text)) := fun hsame =>
        hother ((readsAs_iff_of_find? hsame).2 hclean)
      have hno : text.toList.contains '\r' = false := by simpa using hclean
      rw [hno] at hagain
      exact ⟨hfile, by simp [hdiffers], ⟨_, hagain⟩⟩

/-- What a write that is skipped where the text is read already does. The file is left alone if it
reads as the text, whatever its line breaks are, and holds the bytes of the text otherwise. A second
call leaves everything as it is, but it says that it has written if the text has a carriage return,
as the bytes of such a text are never read as the text. So the file holds the text, the answer is
right and the second call finds nothing to do exactly if the text has no carriage return and the file
has had none in the place of its line breaks. -/
theorem rewrites_of_writeIfChanged
    (h : (writeIfChanged path text).run.run before = (.ok isNew, after)) :
    (isNew = false ↔ before.ReadsAs path text) ∧
    (isNew = false → after = before) ∧
    (isNew = true → after.find? path = some (.file (Text.utf8 text))) ∧
    (writeIfChanged path text).run.run after =
      (.ok (isNew && text.toList.contains '\r'), after) ∧
    (WritesIfDifferent path text before isNew after ↔
      '\r' ∉ text.toList ∧ ∀ old, before.find? path = some (.file (Text.utf8 old)) →
        Text.universalNewlines old = text → '\r' ∉ old.toList) := by
  have hdone : (isNew = false ↔ before.ReadsAs path text) ∧
      (isNew = false → after = before) ∧
      (isNew = true → after.find? path = some (.file (Text.utf8 text))) := by
    rcases writeIfChanged_eq_ok_iff.1 h with ⟨hreads, rfl, rfl⟩ | ⟨hother, -, rfl, hwrite⟩
    · simp [hreads]
    · simp [hother, find?_of_write hwrite]
  obtain ⟨hanswer, hskipped, hwritten⟩ := hdone
  exact ⟨hanswer, hskipped, hwritten, run_writeIfChanged_again h, writesIfDifferent_iff h⟩

/-- A file whose line break is spelled in two characters is left as it is, and a text with a carriage
return is written twice. -/
theorem rewrites_of_writeIfChanged_lineBreaks :
    let path := Path.ofText "out.h"
    let old := ofFiles [(path, Text.utf8 "a\r\nb")]
    let new := ofFiles [(path, Text.utf8 "a\rb")]
    (writeIfChanged path "a\nb").run.run old = (.ok false, old) ∧
    ¬ WritesIfDifferent path "a\nb" old false old ∧
    (writeIfChanged path "a\rb").run.run {} = (.ok true, new) ∧
    (writeIfChanged path "a\rb").run.run new = (.ok true, new) ∧
    ¬ WritesIfDifferent path "a\rb" {} true new := by
  intro path old new
  have hread : Text.universalNewlines "a\r\nb" = "a\nb" := by decide
  have hskipped : (writeIfChanged path "a\nb").run.run old = (.ok false, old) :=
    run_of_readsAs ⟨"a\r\nb", rfl, hread⟩
  have hwritten : (writeIfChanged path "a\rb").run.run {} = (.ok true, new) := rfl
  obtain ⟨-, -, -, -, hleft⟩ := rewrites_of_writeIfChanged hskipped
  obtain ⟨-, -, -, hagain, htwice⟩ := rewrites_of_writeIfChanged hwritten
  refine ⟨hskipped, fun hdiffers => ?_, hwritten, hagain, fun hdiffers => ?_⟩
  · exact (hleft.1 hdiffers).2 "a\r\nb" rfl hread (by decide)
  · exact (htwice.1 hdiffers).1 (by decide)

end Rewriting

end Store

end FluentGen
