import FluentGen.Proofs.Setter.Declaration

/-!
What can go wrong with the methods of a field. Either their options name a special type, or a
conversion or a predicate asks for a default value that cannot be read. Nothing else fails.
-/

namespace FluentGen.Setter

open Schema (Field)

theorem exists_ofOptions {context : SetterContext} {field : Field} {raw : FieldOptions}
    (h : TypeMap.hasSigil TypeMap.specialSigil (context.pool.optionsKey raw field) = false) :
    ∃ s, ofOptions context field raw = .ok s := by
  unfold ofOptions TypeMap.typeInfo
  rw [h]
  exact ⟨_, rfl⟩

theorem ends_addIncludes (s : Setter) : s.addIncludes.result = .ok () := by
  unfold addIncludes
  generalize (if s.addsSourceLocation then s.sourceLocation? else none) = location
  cases location with
  | none =>
    dsimp only
    split
    · rfl
    · split
      · rfl
      · rfl
  | some location =>
    dsimp only
    split
    · rfl
    · split
      · rfl
      · rfl

section Writing

variable {s : Setter} (hdefault : ∃ text, s.field.defaultExpression = .ok text)

include hdefault

theorem exists_apply (expression value : String) :
    ∃ text, s.apply expression value = .ok text := by
  obtain ⟨default, hread⟩ := hdefault
  unfold apply
  split
  · exact ⟨value, rfl⟩
  · rw [hread]
    exact ⟨_, rfl⟩

theorem ends_writePredicate (channel : Channel) : (s.writePredicate channel).result = .ok () := by
  obtain ⟨predicate, hpredicate⟩ :=
    exists_apply hdefault (textOf s.options.predicate) s.predicateValue
  unfold writePredicate
  split
  · rfl
  · rw [Setter.predicate, hpredicate]
    cases hstatus : s.context.useStatus with
    | true => rfl
    | false => rfl

theorem ends_writeBody (channel : Channel) : (s.writeBody channel).result = .ok () := by
  obtain ⟨value, hvalue⟩ := exists_apply hdefault (textOf s.options.conversion) s.unconverted
  unfold writeBody setValue
  rw [hvalue]
  dsimp only
  split
  · rfl
  · split
    · rfl
    · split
      · split
        · rfl
        · rfl
      · split
        · rfl
        · rfl

theorem ends_writeImplementation (channel : Channel) :
    (s.writeImplementation channel).result = .ok () := by
  unfold writeImplementation
  dsimp only
  refine Emit.ends_bind rfl (Emit.ends_bind ends_writeTemplateLine (Emit.ends_bind rfl ?_))
  exact Emit.ends_bind (ends_writePredicate hdefault channel)
    (Emit.ends_bind (ends_writeBody hdefault channel) rfl)

/-- The methods of a field get written if its default value can be read. -/
theorem ends_write : s.write.result = .ok () := by
  by_cases hmode : s.options.mode = .skip
  · rw [write, if_pos hmode]
    rfl
  · cases hsensible : s.conflict? with
    | some error =>
      have hchecked : s.isValidOrWriteError.result = .ok false := by
        unfold isValidOrWriteError
        rw [hsensible]
        exact Emit.ends_bind (linesOf_writeError .header error).1 rfl
      rw [write, if_neg hmode]
      exact Emit.ends_bind hchecked rfl
    | none =>
      have hheader : s.headerPart.result = .ok () := by
        unfold headerPart
        split
        · split
          · exact ends_writeImplementation hdefault .header
          · exact ends_writeDeclaration
        · rfl
      have hsource : s.sourcePart.result = .ok () := by
        unfold sourcePart
        split
        · exact ends_writeImplementation hdefault .source
        · rfl
      have hinterface : s.interfacePart.result = .ok () := by
        unfold interfacePart
        split
        · exact ends_writeDeclaration
        · rfl
      rw [write_eq_parts hmode hsensible]
      exact Emit.ends_bind s.ends_addIncludes
        (Emit.ends_bind hheader (Emit.ends_bind hsource hinterface))

end Writing

end FluentGen.Setter
