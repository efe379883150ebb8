import FluentGen.Options.Text
import FluentGen.Proofs.Except
import FluentGen.Proofs.KeyMap
import FluentGen.Setter.Basic

/-!
The options that a field's methods are written with have three layers: the entry of the type map for
the type, the entry that the macro names, and the annotation. An upper layer decides what it sets,
and lists grow from the bottom to the top; only the type is decided at the bottom.
-/

namespace FluentGen

open Schema (Field)

namespace Slot

variable {S : Type}

/-- An option of a record that is laid over another one. -/
def Joined (slot : Slot S) (below above result : S) : Prop :=
  match slot with
  | single _ _ lens => lens.get result = (lens.get above).or (lens.get below)
  | repeated _ lens => lens.get result = lens.get below ++ lens.get above
  | mapped _ _ _ lens =>
    ∀ key, (lens.get result).get? key = ((lens.get above).get? key).or ((lens.get below).get? key)

/-- An option of three layers. A single value is that of the highest layer that sets it, a list has
the items of all layers, and a map is decided key by key. -/
def Layered (slot : Slot S) (bottom middle top result : S) : Prop :=
  match slot with
  | single _ _ lens =>
    lens.get result = ((lens.get top).or (lens.get middle)).or (lens.get bottom)
  | repeated _ lens => lens.get result = lens.get bottom ++ lens.get middle ++ lens.get top
  | mapped _ _ _ lens =>
    ∀ key, (lens.get result).get? key =
      (((lens.get top).get? key).or ((lens.get middle).get? key)).or ((lens.get bottom).get? key)

/-- Two steps make three layers: the upper two are joined first. -/
theorem Joined.layered {slot : Slot S} {bottom middle top upper result : S}
    (hupper : slot.Joined middle top upper) (hlower : slot.Joined bottom upper result) :
    slot.Layered bottom middle top result := by
  cases slot with
  | single name codec lens =>
    simp only [Joined, Layered] at *
    rw [hlower, hupper]
  | repeated name lens =>
    simp only [Joined, Layered] at *
    rw [hlower, hupper, List.append_assoc]
  | mapped name codec missing lens =>
    simp only [Joined, Layered] at *
    intro key
    rw [hlower, hupper]

end Slot

namespace FieldOptions

/-- Merging lays every option over that of the same name, and what the type is set to afterwards
touches no other option. -/
theorem joined_merge (below above : FieldOptions) (type : Option String) :
    ∀ slot ∈ slots, slot.name ≠ "type" →
      slot.Joined below above { below.merge above with type } := by
  simp [slots, Slot.name, Slot.Joined, merge]

@[simp] theorem empty_merge (o : FieldOptions) : merge {} o = o := by
  have hdata : KeyMap.union {} o.data = o.data := KeyMap.ofList_entries o.data
  simp [merge, hdata]

/-- The type of options that are laid over those of their type, in which the field's own type is put
afterwards. -/
def typeOver (o below : FieldOptions) (fieldType : String) : Option String :=
  (if (textOf below.type).isEmpty then o.type.or below.type else below.type).map
    (Text.replace TypeMap.typeToken fieldType)

theorem withFieldType_overType (o below : FieldOptions) (fieldType : String) :
    (o.overType below).withFieldType fieldType =
      { below.merge o with type := o.typeOver below fieldType } := by
  unfold overType typeOver
  split
  · simp [withFieldType, merge]
  · rfl

theorem textOf_map {f : String → String} (hempty : f "" = "") (setting : Option String) :
    textOf (setting.map f) = f (textOf setting) := by
  cases setting with
  | none => exact hempty.symm
  | some text => rfl

/-- Below counts what is not empty, and above it what is set. -/
theorem textOf_typeOver (o below : FieldOptions) (fieldType : String) :
    textOf (o.typeOver below fieldType) =
      Text.replace TypeMap.typeToken fieldType
        (if (textOf below.type).isEmpty then textOf o.type else textOf below.type) := by
  rw [typeOver, textOf_map rfl]
  cases htype : below.type with
  | none => simp [textOf]
  | some type =>
    by_cases hempty : type = ""
    · cases o.type with
      | none => simp [textOf, hempty]
      | some given => simp [textOf, hempty]
    · simp [textOf, hempty]

theorem isSome_typeOver (o below : FieldOptions) (fieldType : String) :
    (o.typeOver below fieldType).isSome = (o.type.isSome || below.type.isSome) := by
  rw [typeOver, Option.isSome_map]
  cases htype : below.type with
  | none => simp [textOf]
  | some type =>
    by_cases hempty : type = ""
    · simp [textOf, hempty]
    · simp [textOf, hempty]

end FieldOptions

namespace TypeMap

/-- The entry that the macro of options names. One that is empty names none. -/
def macroEntry (map : TypeMap) (o : FieldOptions) : FieldOptions :=
  let key := textOf o.macroKey
  if key.isEmpty then {} else (map.get? key).getD {}

theorem resolveMacro_eq (map : TypeMap) (o : FieldOptions) :
    resolveMacro map o = (macroEntry map o).merge o := by
  unfold resolveMacro macroEntry
  dsimp only
  split
  · simp
  · cases map.get? (textOf o.macroKey) with
    | none => simp
    | some below => rfl

end TypeMap

namespace Setter

/-- What the methods for options are made of. The options are laid over those of the entry for the
type, whose key is no special one. -/
theorem parts_of_ofOptions {context : SetterContext} {field : Field} {raw : FieldOptions}
    {s : Setter} (hs : ofOptions context field raw = .ok s) :
    let key := context.pool.optionsKey raw field
    let below := (context.typeMap.get? key).getD {}
    TypeMap.hasSigil TypeMap.specialSigil key = false ∧
      s.context = context ∧ s.field = field ∧ s.raw = raw ∧
      s.options =
        { below.merge raw with type := raw.typeOver below (context.pool.cppType field) } := by
  obtain ⟨entry, hentry, hmade⟩ := exists_of_bind_eq_ok hs
  unfold TypeMap.typeInfo at hentry
  split at hentry
  · cases hentry
  · next hspecial =>
    cases hentry
    cases hmade
    exact ⟨by simpa using hspecial, rfl, rfl, rfl, raw.withFieldType_overType _ _⟩

/-- The options that the methods of an annotation `a` are written with. Below it lie the entry `m`
that its macro names and the entry `t` for the type of both. The upper layer that sets an option
decides it, except for the type: a type that `t` has replaces that of the other layers. -/
theorem options_layered (context : SetterContext) (field : Field) (a : FieldOptions)
    {m u t : FieldOptions} {key : String} (hm : m = TypeMap.macroEntry context.typeMap a)
    (hu : u = m.merge a) (hkey : key = u.type.getD (context.pool.cppType field))
    (ht : t = (context.typeMap.get? key).getD {})
    (hplain : TypeMap.hasSigil TypeMap.specialSigil key = false) :
    ∃ s, Setter.ofOptions context field (TypeMap.resolveMacro context.typeMap a) = .ok s ∧
      (∀ slot ∈ FieldOptions.slots, slot.name ≠ "type" → slot.Layered t m a s.options) ∧
      textOf s.options.type =
        Text.replace TypeMap.typeToken (context.pool.cppType field)
          (if (textOf t.type).isEmpty then a.type.getD (textOf m.type) else textOf t.type) ∧
      (s.options.type.isSome ↔ a.type.isSome ∨ m.type.isSome ∨ t.type.isSome) := by
  have hresolved : TypeMap.resolveMacro context.typeMap a = u := by
    rw [TypeMap.resolveMacro_eq, ← hm, ← hu]
  have hinfo : context.typeMap.typeInfo (context.pool.optionsKey u field) =
      .ok (context.typeMap.get? key) := by
    rw [Schema.Pool.optionsKey, ← hkey]
    simp [TypeMap.typeInfo, hplain]
  have hupperType : u.type = a.type.or m.type := by
    rw [hu]
    simp [FieldOptions.merge]
  have hoptions := u.withFieldType_overType t (context.pool.cppType field)
  refine ⟨⟨context, field, u, context.typeMap.get? key,
    (u.overType t).withFieldType (context.pool.cppType field)⟩, ?_, ?_, ?_, ?_⟩
  · rw [hresolved, ofOptions, hinfo, ht]
    rfl
  · intro slot hslot hname
    have hupper : slot.Joined m a u := by
      rw [hu]
      exact FieldOptions.joined_merge m a _ slot hslot hname
    rw [hoptions]
    exact hupper.layered (FieldOptions.joined_merge t u _ slot hslot hname)
  · have hgiven : textOf u.type = a.type.getD (textOf m.type) := by
      rw [hupperType, textOf, textOf, Option.getD_or]
    rw [hoptions, ← hgiven]
    exact u.textOf_typeOver t (context.pool.cppType field)
  · have hsome := u.isSome_typeOver t (context.pool.cppType field)
    rw [hoptions]
    simp [hsome, hupperType, or_assoc]

/-- A number whose annotation clears the conversion of its macro, and whose type, which the macro
names, brings a type and a predicate with it. -/
theorem options_layered_macro :
    let macroOptions : FieldOptions :=
      { type := some "@seconds", conversion := some "to(@value@)", includes := ["macro.h"] }
    let typeOptions : FieldOptions :=
      { type := some "Wrapped<@type@>", predicate := some "check(@value@)", includes := ["type.h"] }
    let context : SetterContext :=
      { typeMap := KeyMap.ofList [("$macro", macroOptions), ("@seconds", typeOptions)], pool := {}
        className := "B", dataParent := "data_.", nameParent := "" }
    let field : Field :=
      { name := "n", fullName := "M.n", number := 1, kind := .int32, label := .optional
        container := ⟨"f", [0]⟩, typeName := "", target := .scalar, default := none
        annotations := [] }
    let a : FieldOptions :=
      { conversion := some "", includes := ["own.h"], macroKey := some "$macro" }
    ∃ s, Setter.ofOptions context field (TypeMap.resolveMacro context.typeMap a) = .ok s ∧
      (∀ slot ∈ FieldOptions.slots, slot.name ≠ "type" →
        slot.Layered typeOptions macroOptions a s.options) ∧
      textOf s.options.type = "Wrapped<int32_t>" := by
  intro macroOptions typeOptions context field a
  have hmacro : macroOptions = TypeMap.macroEntry context.typeMap a := by decide +kernel
  have htype : typeOptions = (context.typeMap.get? "@seconds").getD {} := by decide +kernel
  have hkey : "@seconds" =
      (macroOptions.merge a).type.getD (context.pool.cppType field) := by decide +kernel
  obtain ⟨s, hs, hlayers, hresult, -⟩ :=
    options_layered context field a hmacro rfl hkey htype (by decide +kernel)
  refine ⟨s, hs, hlayers, ?_⟩
  rw [hresult]
  decide +kernel

end Setter

end FluentGen
