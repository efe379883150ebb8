import FluentGen.Proofs.Options.RoundTrip

/-!
What is written stays on its line. The escapes of a literal leave no control character standing, and
words have none, so that a written message has none either, whatever the texts in it are.
-/

namespace FluentGen

namespace Text

/-- A text without control characters, and so without the line breaks among them. -/
def IsInline (text : List Char) : Prop := ∀ c ∈ text, 32 ≤ c.toNat

instance (text : List Char) : Decidable (IsInline text) :=
  decidable_of_iff (text.all fun c => 32 ≤ c.toNat) (by simp [IsInline])

theorem isInline_nil : IsInline [] := by
  intro c hc
  cases hc

theorem isInline_append {text more : List Char} :
    IsInline (text ++ more) ↔ IsInline text ∧ IsInline more :=
  List.forall_mem_append

theorem isInline_cons {c : Char} {text : List Char} :
    IsInline (c :: text) ↔ 32 ≤ c.toNat ∧ IsInline text :=
  List.forall_mem_cons

/-- Each of the three digits of an octal escape is written. -/
theorem isInline_octalEscape (b : UInt8) : IsInline (octalEscape b) := by
  have hlt : b.toNat < 256 := b.toNat_lt
  have hdigit : ∀ n < 8, 32 ≤ (Char.ofNat (48 + n)).toNat := by decide
  unfold octalEscape
  simp only [isInline_cons]
  exact ⟨by decide, hdigit _ (by omega), hdigit _ (by omega), hdigit _ (by omega), isInline_nil⟩

theorem isInline_escapeByte (b : UInt8) : IsInline (escapeByte b) := by
  have hnamed (e : Char) (he : 32 ≤ e.toNat) : IsInline ['\\', e] :=
    isInline_cons.2 ⟨by decide, isInline_cons.2 ⟨he, isInline_nil⟩⟩
  unfold escapeByte
  split
  · exact hnamed 't' (by decide)
  · exact hnamed 'n' (by decide)
  · exact hnamed 'r' (by decide)
  · exact hnamed '"' (by decide)
  · exact hnamed '\'' (by decide)
  · exact hnamed '\\' (by decide)
  · split
    · next hprint =>
      have hnat : (Char.ofNat b.toNat).toNat = b.toNat := toNat_charOfNat (by omega)
      exact isInline_cons.2 ⟨by rw [hnat]; exact hprint.1, isInline_nil⟩
    · exact isInline_octalEscape b

theorem isInline_escapeKeepingUnicode (text : String) :
    IsInline (escapeKeepingUnicode text).toList := by
  rw [escapeKeepingUnicode, String.toList_ofList]
  intro c hc
  obtain ⟨d, -, hc⟩ := List.mem_flatMap.1 hc
  unfold escapeChar at hc
  split at hc
  · exact isInline_escapeByte _ c hc
  · next hwide =>
    rw [List.mem_singleton.1 hc]
    omega

end Text

namespace TextFormat

open Text (IsInline isInline_append isInline_cons isInline_nil)

theorem isInline_of_isWord {spelling : String} (h : isWord spelling) :
    IsInline spelling.toList := by
  unfold isWord at h
  intro c hc
  split at h
  · cases h
  · next first rest hspelling =>
    obtain ⟨hfirst, hrest⟩ := Bool.and_eq_true_iff.1 h
    rw [hspelling] at hc
    have hword : continuesWord c := by
      rcases List.mem_cons.1 hc with rfl | hc
      · exact continuesWord_of_beginsWord hfirst
      · exact List.all_eq_true.1 hrest c hc
    exact Nat.le_of_lt (toNat_of_continuesWord hword).1

theorem isInline_intercalate {separator : String} (hseparator : IsInline separator.toList)
    {texts : List String} (h : ∀ text ∈ texts, IsInline text.toList) :
    IsInline (separator.intercalate texts).toList := by
  induction texts with
  | nil => exact isInline_nil
  | cons first rest ih =>
    obtain ⟨hfirst, hrest⟩ := List.forall_mem_cons.1 h
    cases rest with
    | nil => simpa using hfirst
    | cons second rest =>
      rw [String.intercalate_cons_cons, String.toList_append, String.toList_append,
        isInline_append, isInline_append]
      exact ⟨⟨hfirst, hseparator⟩, ih hrest⟩

mutual

theorem Value.isInline_render (v : Value) (h : v.isWritable) : IsInline v.render.toList := by
  cases v with
  | atom spelling => exact isInline_of_isWord h
  | text content =>
    simp only [Value.render, String.toList_append, isInline_append]
    exact ⟨⟨by decide, Text.isInline_escapeKeepingUnicode content⟩, by decide⟩
  | message fields =>
    simp only [Value.render, String.toList_append, isInline_append]
    exact ⟨⟨by decide, isInline_renderEach fields h⟩, by decide⟩
  | list items =>
    simp only [Value.render, String.toList_append, isInline_append]
    exact ⟨⟨by decide, isInline_intercalate (by decide) (isInline_renderItems items h)⟩, by decide⟩

theorem Field.isInline_render (f : Field) (h : f.isWritable) : IsInline f.render.toList := by
  obtain ⟨name, colon, value⟩ := f
  obtain ⟨hname, hvalue⟩ := Bool.and_eq_true_iff.1 h
  simp only [Field.render, String.toList_append, isInline_append]
  exact ⟨⟨isInline_of_isWord hname, by cases colon <;> decide⟩, value.isInline_render hvalue⟩

theorem isInline_renderEach (fields : List Field) (h : areWritable fields) :
    IsInline (renderEach fields).toList := by
  cases fields with
  | nil => exact isInline_nil
  | cons f rest =>
    obtain ⟨hf, hrest⟩ := Bool.and_eq_true_iff.1 h
    simp only [renderEach, String.toList_append, isInline_append]
    exact ⟨⟨f.isInline_render hf, by decide⟩, isInline_renderEach rest hrest⟩

theorem isInline_renderItems (items : List Value) (h : areWritableItems items) :
    ∀ text ∈ renderItems items, IsInline text.toList := by
  cases items with
  | nil =>
    intro text htext
    cases htext
  | cons v rest =>
    obtain ⟨hv, hrest⟩ := Bool.and_eq_true_iff.1 h
    exact List.forall_mem_cons.2 ⟨v.isInline_render hv, isInline_renderItems rest hrest⟩

end

/-- A message is written on one line. -/
theorem isInline_render {fields : List Field} (h : areWritable fields) :
    IsInline (render fields).toList := by
  apply isInline_intercalate (by decide)
  intro text htext
  obtain ⟨f, hf, rfl⟩ := List.mem_map.1 htext
  exact f.isInline_render ((areWritable_iff fields).1 h f hf)

end TextFormat

theorem FieldOptions.isInline_render (o : FieldOptions) : Text.IsInline o.render.toList :=
  TextFormat.isInline_render (FieldOptions.areWritable_toFields o)

end FluentGen
