import FluentGen.Proofs.Setter.Guard
import FluentGen.Proofs.Setter.Layers
import FluentGen.TypeMap.Builtin

/-!
Which methods have a guard, by the layer that brings the predicate. The expression of the guard is
that of all three layers, but whether there is a guard is asked of the annotation and its macro
only. So a predicate of the entry for the type is not asked about, while the conversion that comes
with it is applied.
-/

namespace FluentGen.Setter

open Emit (linesOf)
open Schema (Field)

/-- The guard of an expanded predicate. -/
def guardOf (s : Setter) (predicate : String) : List String :=
  if s.context.useStatus then recordingGuard predicate else droppingGuard predicate

theorem guardOf_ne_nil (s : Setter) (predicate : String) : s.guardOf predicate ≠ [] := by
  unfold guardOf
  split
  · exact List.cons_ne_nil _ _
  · exact List.cons_ne_nil _ _

section Layers

variable {context : SetterContext} {field : Field} {raw : FieldOptions} {s : Setter}

theorem raw_of_ofOptions (h : Setter.ofOptions context field raw = .ok s) : s.raw = raw :=
  (parts_of_ofOptions h).2.2.2.1

/-- The predicate in force is that of the upper layers, or else that of the entry for the type. -/
theorem predicate_of_ofOptions (h : Setter.ofOptions context field raw = .ok s) :
    s.options.predicate = raw.predicate.or
      ((context.typeMap.get? (context.pool.optionsKey raw field)).bind (·.predicate)) := by
  obtain ⟨-, -, -, -, hoptions⟩ := parts_of_ofOptions h
  rw [hoptions]
  cases context.typeMap.get? (context.pool.optionsKey raw field) with
  | none => simp [FieldOptions.merge]
  | some below => simp [FieldOptions.merge]

theorem predicate_resolveMacro (map : TypeMap) (a : FieldOptions) :
    (map.resolveMacro a).predicate = a.predicate.or (map.macroEntry a).predicate := by
  rw [TypeMap.resolveMacro_eq]
  simp [FieldOptions.merge]

end Layers

theorem writePredicate_of_empty {s : Setter} (h : (textOf s.raw.predicate).isEmpty = true)
    (channel : Channel) : linesOf channel (s.writePredicate channel) = [] := by
  unfold writePredicate
  rw [if_pos h]
  rfl

/-- A method that is defined has a guard between its head and its body exactly if a predicate that
is not empty is in force and one is set above the entry for the type; the guard asks the predicate
in force. A predicate that only the entry for the type sets is in force without a guard. -/
theorem guarded_iff_set_above_type {context : SetterContext} {field : Field} {raw : FieldOptions}
    {s : Setter} {channel : Channel} (hs : Setter.ofOptions context field raw = .ok s)
    (hdefined : s.DefinedIn channel) (h : s.write.result = .ok ()) :
    s.options.predicate = raw.predicate.or
        ((context.typeMap.get? (context.pool.optionsKey raw field)).bind (·.predicate)) ∧
      (∀ a, raw = context.typeMap.resolveMacro a →
        raw.predicate = a.predicate.or (context.typeMap.macroEntry a).predicate) ∧
      ∃ guard,
        linesOf channel s.write =
          "" :: linesOf channel (s.writeTemplateLine channel) ++ [s.signature channel] ++ guard ++
            linesOf channel (s.writeBody channel) ++ ["  return *this;", "\x7d", ""] ∧
        (guard ≠ [] → ∃ predicate,
          s.apply (textOf s.options.predicate) s.predicateValue = .ok predicate ∧
            guard = s.guardOf predicate) ∧
        (guard ≠ [] ↔ textOf s.options.predicate ≠ "" ∧ raw.predicate.isSome) := by
  have hraw := raw_of_ofOptions hs
  have hforce := predicate_of_ofOptions hs
  obtain ⟨hguard, hlines⟩ := linesOf_write_of_defined hdefined h
  refine ⟨hforce, ?_, linesOf channel (s.writePredicate channel), hlines, ?_, ?_⟩
  · rintro a rfl
    exact predicate_resolveMacro context.typeMap a
  · intro hsome
    have hgiven : (textOf s.raw.predicate).isEmpty = false := by
      by_contra hempty
      exact hsome (writePredicate_of_empty (by simpa using hempty) channel)
    obtain ⟨predicate, hpredicate, heq⟩ := linesOf_writePredicate hgiven hguard
    exact ⟨predicate, hpredicate, heq⟩
  · cases hset : raw.predicate with
    | none =>
      have hempty : (textOf s.raw.predicate).isEmpty = true := by
        rw [hraw, hset]
        rfl
      simp [writePredicate_of_empty hempty channel]
    | some given =>
      have hresolved : textOf s.options.predicate = textOf s.raw.predicate := by
        rw [hforce, hraw, hset, Option.some_or]
      rw [hresolved]
      cases hgiven : (textOf s.raw.predicate).isEmpty with
      | true =>
        have hnone : textOf s.raw.predicate = "" := String.isEmpty_iff.1 hgiven
        simp [writePredicate_of_empty hgiven channel, hnone]
      | false =>
        obtain ⟨predicate, -, heq⟩ := linesOf_writePredicate hgiven hguard
        have hguarded : linesOf channel (s.writePredicate channel) ≠ [] :=
          heq ▸ s.guardOf_ne_nil predicate
        simpa [hguarded] using hgiven

/-- A duration whose annotation asks for the built-in conversion by its key. The entry behind the key
brings the predicate that makes the conversion safe; the method converts without it. -/
theorem guarded_iff_set_above_type_duration :
    let duration : Schema.Message :=
      { address := ⟨"d.proto", [0]⟩, name := "Duration", fullName := "google.protobuf.Duration"
        container := none, enclosing := [], outermost := "google.protobuf.Duration", fields := []
        enums := [], isMapEntry := false, options := none }
    let field : Field :=
      { name := "wait", fullName := "M.wait", number := 1, kind := .message, label := .optional
        container := ⟨"m.proto", [0]⟩, typeName := ".google.protobuf.Duration"
        target := .message duration.address, default := none, annotations := [] }
    let context : SetterContext :=
      { typeMap := KeyMap.ofList
          [("@ToProtoDuration", TypeMap.Builtin.convertedTime "absl::Duration")]
        pool := { messages := [duration] }, className := "B", dataParent := "data_."
        nameParent := "" }
    ∃ s, Setter.ofOptions context field { type := some "@ToProtoDuration" } = .ok s ∧
      textOf s.options.predicate = "proto_builder::oss::ConvertToProto(@value@).status()" ∧
      (∃ guard,
        linesOf .source s.write =
          "" :: linesOf .source (s.writeTemplateLine .source) ++ [s.signature .source] ++ guard ++
            linesOf .source (s.writeBody .source) ++ ["  return *this;", "\x7d", ""] ∧
        guard = []) ∧
      linesOf .source s.write =
        ["", "B& B::SetWait(absl::Duration value) \x7b",
          "  *data_.mutable_wait() = *proto_builder::oss::ConvertToProto(value);",
          "  return *this;", "\x7d", ""] := by
  intro duration field context
  let raw : FieldOptions := { type := some "@ToProtoDuration" }
  let entry := context.typeMap.get? "@ToProtoDuration"
  let s : Setter :=
    ⟨context, field, raw, entry,
      (raw.overType (entry.getD {})).withFieldType (context.pool.cppType field)⟩
  have hentry : context.typeMap.typeInfo (context.pool.optionsKey raw field) = .ok entry := by
    decide +kernel
  have hs : Setter.ofOptions context field raw = .ok s := by
    rw [Setter.ofOptions, hentry]
    rfl
  have hdefined : s.DefinedIn .source := ⟨by decide +kernel, Or.inr ⟨rfl, by decide +kernel⟩⟩
  have hwritten : s.write.result = .ok () := by decide +kernel
  obtain ⟨-, -, guard, hlines, -, hguard⟩ := guarded_iff_set_above_type hs hdefined hwritten
  have hnone : guard = [] := by simpa [raw] using hguard
  exact ⟨s, hs, by decide +kernel, ⟨guard, hlines, hnone⟩, by decide +kernel⟩

end FluentGen.Setter
