import FluentGen.Proofs.Except
import FluentGen.Proofs.Text.Lines
import FluentGen.Settings.Basic

/-!
What the checks of the settings accept. What a check makes of a value is accepted again when it is
written out, and the same is made of it.
-/

namespace FluentGen.Settings

variable {value : Value}

theorem text_eq_ok_iff {s : String} : text value = .ok s ↔ value = .text s := by
  cases value <;> simp [text]

theorem nonEmptyText_eq_ok_iff {s : String} :
    nonEmptyText value = .ok s ↔ value = .text s ∧ s ≠ "" := by
  unfold nonEmptyText
  constructor
  · intro h
    obtain ⟨t, ht, h⟩ := exists_of_bind_eq_ok h
    split at h
    · cases h
    · next hempty =>
      cases h
      exact ⟨text_eq_ok_iff.1 ht, by simpa using hempty⟩
  · rintro ⟨rfl, h⟩
    rw [text_eq_ok_iff.2 rfl]
    exact if_neg (by simpa using h)

/-- A selection names messages and files, on the two sides of its first colon. -/
theorem selectionFlag_eq_ok_iff {flag : String} :
    selectionFlag value = .ok flag ↔
      value = .text flag ∧ ∃ names files, ':' ∉ names.toList ∧ names ≠ "" ∧ files ≠ "" ∧
        flag = names ++ ":" ++ files := by
  unfold selectionFlag
  constructor
  · intro h
    obtain ⟨s, hs, h⟩ := exists_of_bind_eq_ok h
    split at h
    · next names files hcut =>
      split at h
      · cases h
      · next hfull =>
        cases h
        obtain ⟨hnames, rfl⟩ := Text.cut_eq_some_iff.1 hcut
        simp only [Bool.or_eq_true, String.isEmpty_iff, not_or] at hfull
        exact ⟨(nonEmptyText_eq_ok_iff.1 hs).1, names, files, hnames, hfull.1, hfull.2, rfl⟩
    · cases h
  · rintro ⟨rfl, names, files, hcolon, hnames, hfiles, rfl⟩
    have htext : names ++ ":" ++ files ≠ "" := by simp
    have hcut : Text.cut ':' (names ++ ":" ++ files) = (names, some files) :=
      Text.cut_eq_some_iff.2 ⟨hcolon, rfl⟩
    have hfull : ¬ (names.isEmpty || files.isEmpty) = true := by simp [hnames, hfiles]
    rw [nonEmptyText_eq_ok_iff.2 ⟨rfl, htext⟩]
    simp only [bind, Except.bind, hcut]
    exact if_neg hfull

theorem optionalText_eq_ok_iff {text? : Option String} :
    optionalText value = .ok text? ↔
      value = (text?.map Value.text).getD .absent ∧ text? ≠ some "" := by
  constructor
  · intro h
    unfold optionalText at h
    split at h
    · cases h
      simp
    · split at h
      · next s hs =>
        cases h
        obtain ⟨rfl, hne⟩ := nonEmptyText_eq_ok_iff.1 hs
        exact ⟨rfl, by simpa using hne⟩
      · cases h
  · rintro ⟨rfl, h⟩
    cases text? with
    | none => rfl
    | some s =>
      have hs : nonEmptyText (.text s) = .ok s :=
        nonEmptyText_eq_ok_iff.2 ⟨rfl, by simpa using h⟩
      simp [optionalText, hs]

theorem textList_texts (texts : List String) : textList (.list (texts.map .text)) = .ok texts := by
  rw [textList, mapM_eq_ok_iff, List.forall₂_map_left_iff, List.forall₂_same]
  exact fun s _ => text_eq_ok_iff.2 rfl

theorem limit_toValue (l : Limit) : limit l.toValue = .ok l := by
  cases l with
  | count n => simp [Limit.toValue, limit]
  | truth b => rfl

end FluentGen.Settings
