import FluentGen.Proofs.Builder.Spelled
import FluentGen.Proofs.Name.TypeName
import FluentGen.Proofs.Setter.Completion
import FluentGen.Proofs.Setter.Layers
import FluentGen.Proofs.TypeMap.Builtin

/-!
Runs that end well. A run gets to fields of the builder's message and of messages of the schema only,
and the walk itself does not fail. Without annotations, and with the type map that every run starts
from, no visit fails either: the names of types are no special ones, and defaults can be read.
-/

namespace FluentGen.Builder

open Schema (Field Message Address)
open TypeMap (hasSigil specialSigil)

section Walk

variable {b : Builder} {enter : Place → Emit Unit}

theorem ends_walkInto {place : Place} {field : Field} {expand : Bool}
    (henter : ∀ inner : Place, inner.message ∈ b.pool.messages → (enter inner).result = .ok ()) :
    (b.walkInto enter place field expand).result = .ok () := by
  unfold walkInto
  split
  · rfl
  · next inner hentered =>
    split at hentered
    · have hmem : (place.into field inner).message ∈ b.pool.messages :=
        Schema.Pool.mem_messages_of_targetMessage? hentered
      exact Emit.ends_bind rfl (henter _ hmem)
    · cases hentered

theorem ends_needsMapValue (field : Field) :
    (b.needsMapValue field).result = .ok () := by
  unfold needsMapValue
  split
  · rfl
  · rfl

theorem ends_walkFields {place : Place} {fields : List Field}
    (hvisit : ∀ f ∈ fields, ∃ expand, (b.writeVisit (place.visit f)).result = .ok expand)
    (henter : ∀ inner : Place, inner.message ∈ b.pool.messages → (enter inner).result = .ok ()) :
    (b.walkFields b.writeVisit enter place fields).result = .ok () := by
  induction fields with
  | nil => rfl
  | cons field rest ih =>
    have hfield : (b.walkField b.writeVisit enter place field).result = .ok () := by
      obtain ⟨expand, hexpand⟩ := hvisit field List.mem_cons_self
      unfold walkField
      split
      · rfl
      · exact Emit.ends_bind hexpand (Emit.ends_bind (ends_walkInto henter)
          (ends_needsMapValue field))
    exact Emit.ends_bind hfield (ih fun f hf => hvisit f (List.mem_cons_of_mem _ hf))

/-- A run ends well if all visits that it may make do. -/
theorem ends_write_of_visits (hvisit : ∀ place : Place,
      place.message ∈ b.message :: b.pool.messages →
      ∀ f ∈ place.message.fields, ∃ expand, (b.writeVisit (place.visit f)).result = .ok expand) :
    b.write.result = .ok () := by
  have hwalk : ∀ fuel path (place : Place), place.message ∈ b.message :: b.pool.messages →
      (b.walkMessage b.writeVisit fuel path place).result = .ok () := by
    intro fuel
    induction fuel with
    | zero => intro path place _; rfl
    | succ fuel ih =>
      intro path place hplace
      unfold walkMessage
      dsimp only
      split
      · rfl
      · split
        · rfl
        · exact Emit.ends_bind rfl (ends_walkFields (hvisit place hplace)
            fun inner hinner => ih _ inner (List.mem_cons_of_mem _ hinner))
  exact Emit.ends_bind rfl (Emit.ends_bind (hwalk _ _ b.root List.mem_cons_self) rfl)

end Walk

/-- A schema whose names are none of special types, and whose defaults can be read. -/
structure Readable (b : Builder) : Prop where
  message : ∀ m ∈ b.pool.messages, hasSigil specialSigil m.fullName = false
  enum : ∀ m ∈ b.message :: b.pool.messages, ∀ f ∈ m.fields, ∀ e, f.target = .enum e →
    hasSigil specialSigil e.fullName = false
  default : ∀ m ∈ b.message :: b.pool.messages, ∀ f ∈ m.fields,
    ∃ text, f.defaultExpression = .ok text

section Plain

variable {b : Builder}

theorem hasSigil_absolute {name : String} (h : hasSigil specialSigil name = false) :
    hasSigil specialSigil (Name.absolute name) = false := by
  have hinteger : ∀ e ∈ Name.integerTypes, e.2.toList.head? ≠ some specialSigil := by decide
  rw [hasSigil, beq_eq_false_iff_ne] at h ⊢
  intro hhead
  rcases Name.head?_absolute hhead with hname | hcolon | ⟨e, he, hletter⟩
  · exact h hname
  · exact absurd hcolon (by decide)
  · exact hinteger e he hletter

theorem hasSigil_cppType {field : Field}
    (hmessage : ∀ m ∈ b.pool.messages, hasSigil specialSigil m.fullName = false)
    (henum : ∀ e, field.target = .enum e → hasSigil specialSigil e.fullName = false) :
    hasSigil specialSigil (b.pool.cppType field) = false := by
  unfold Schema.Pool.cppType Schema.Pool.cppTypeTo
  dsimp only
  split
  · next m hm =>
    split
    · simp [hasSigil, specialSigil]
    · exact hasSigil_absolute (hmessage m (Schema.Pool.mem_messages_of_targetMessage? hm))
  · split
    · next e he => exact hasSigil_absolute (henum e he)
    · split
      · decide
      · cases field.kind <;> decide

/-- Without annotations a run with the built-in type map ends well. -/
theorem ends_write (hmap : b.typeMap = TypeMap.file TypeMap.builtin) (hplain : b.Unannotated)
    (h : b.Readable) : b.write.result = .ok () := by
  refine ends_write_of_visits fun place hplace field hfield => ?_
  have hempty : field.annotations.isEmpty = true := by
    rw [hplain _ hplace field hfield]
    rfl
  have hdefault := h.default _ hplace field hfield
  have htype := hasSigil_cppType h.message (h.enum _ hplace field hfield)
  have hmethod : ∀ options first, hasSigil specialSigil (b.pool.optionsKey options field) = false →
      (b.writeMethod field options place.dataParent place.nameParent first).result = .ok () := by
    intro options first hkey
    obtain ⟨s, hs⟩ : ∃ s, Setter.ofOptions (b.context place.dataParent place.nameParent first)
        field options = .ok s := Setter.exists_ofOptions hkey
    have hsame := (Setter.parts_of_ofOptions hs).2.2.1
    unfold writeMethod
    rw [hs]
    exact Setter.ends_write (hsame ▸ hdefault)
  have hfirst := hmethod {} true htype
  have hall : (b.writePlain field place.dataParent place.nameParent).result = .ok () := by
    unfold writePlain
    refine Emit.ends_bind hfirst ?_
    split
    · next automatic hautomatic =>
      rw [hmap] at hautomatic
      obtain ⟨converted, hmem, hconverted, -, -⟩ := TypeMap.automaticType?_builtin hautomatic
      have hkeys : ∀ c ∈ TypeMap.convertedTypes, hasSigil specialSigil c.2 = false := by decide
      apply hmethod automatic false
      rw [Schema.Pool.optionsKey, hconverted]
      exact hkeys _ hmem
    · rfl
  unfold writeVisit writeField Place.visit
  rw [if_pos hempty]
  exact ⟨_, Emit.ends_bind hall rfl⟩

end Plain

end FluentGen.Builder
