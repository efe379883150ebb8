import FluentGen.Proofs.Setter.Completion
import FluentGen.Proofs.Setter.Layers
import FluentGen.Proofs.Text.Substitution
import FluentGen.Proofs.TypeMap.Updates

/-!
The type that a type map gives to a field. An entry is accepted if no sigil is left in its type once
the token for the type of the field is replaced by a word, and a field replaces the token by its own
type. Both cut the type at the same places, so all sigils belong to tokens and none is left.
-/

namespace FluentGen

open Schema (Field)

namespace TypeMap

theorem KeepsRules.of_get? {map : TypeMap} (h : KeepsRules map) {key : String} {o : FieldOptions}
    (hentry : map.get? key = some o) : brokenRule? key o = none :=
  h (key, o) ((map.mem_entries_iff (key, o)).2 hentry)

/-- In the type of an entry that keeps the rules, all sigils belong to tokens. -/
theorem sigil_of_keepsRules {key : String} {o : FieldOptions} (h : brokenRule? key o = none) :
    builtinSigil ∉ (Text.replace typeToken "Type" (textOf o.type)).toList := by
  have hrule := brokenRule?_eq_none_iff.1 h
    (.sigilInType, !(Text.replace typeToken "Type" (textOf o.type)).toList.contains builtinSigil)
    (by simp [checks])
  simpa using hrule

end TypeMap

namespace Setter

open TypeMap (builtinSigil specialSigil typeToken hasSigil)

variable {context : SetterContext} {field : Field} {raw : FieldOptions}

theorem ofOptions_of_special
    (h : hasSigil specialSigil (context.pool.optionsKey raw field) = true) :
    ofOptions context field raw =
      .error (.lookupMismatch false (context.pool.optionsKey raw field)) := by
  unfold ofOptions TypeMap.typeInfo
  rw [h]
  rfl

/-- An entry with a type replaces the type of the options. -/
theorem type_of_entry {s : Setter} (hs : ofOptions context field raw = .ok s) {below : FieldOptions}
    (hentry : context.typeMap.get? (context.pool.optionsKey raw field) = some below)
    (htype : textOf below.type ≠ "") :
    textOf s.options.type =
      Text.replace typeToken (context.pool.cppType field) (textOf below.type) := by
  obtain ⟨-, -, -, -, hoptions⟩ := parts_of_ofOptions hs
  rw [hoptions, hentry]
  dsimp only [Option.getD_some]
  rw [raw.textOf_typeOver, if_neg (by simpa using htype)]

theorem rawType_cases (s : Setter) :
    s.rawType = textOf s.options.type ∨ s.rawType = s.fieldType := by
  unfold rawType
  dsimp only
  split
  · exact Or.inr rfl
  · exact Or.inl rfl

/-- No sigil is left in the type that a loaded type map, after any updates, gives to a field: the
methods cannot be made at all if the key of their type is that of a special one, and otherwise their
type is that of the entry with the field's own type in place of the tokens, and free of sigils. -/
theorem resolvedType_without_sigil {text : String} {custom : Option String} {first : TypeMap}
    {updates : List TypeMap} (hload : TypeMap.load text custom = .ok first)
    (hupdates : TypeMap.updateAll first updates = .ok context.typeMap)
    (hfield : builtinSigil ∉ (context.pool.cppType field).toList) {below : FieldOptions}
    (hentry : context.typeMap.get? (context.pool.optionsKey raw field) = some below)
    (htype : textOf below.type ≠ "") :
    (hasSigil specialSigil (context.pool.optionsKey raw field) = true →
      ofOptions context field raw =
        .error (.lookupMismatch false (context.pool.optionsKey raw field))) ∧
    (hasSigil specialSigil (context.pool.optionsKey raw field) = false →
      ∃ s, ofOptions context field raw = .ok s ∧
        textOf s.options.type =
          Text.replace typeToken (context.pool.cppType field) (textOf below.type) ∧
        builtinSigil ∉ (textOf s.options.type).toList ∧ builtinSigil ∉ s.rawType.toList) := by
  refine ⟨ofOptions_of_special, ?_⟩
  intro hplain
  obtain ⟨s, hs⟩ : ∃ s, ofOptions context field raw = .ok s := exists_ofOptions hplain
  have hrules := TypeMap.keepsRules_updateAll hupdates (TypeMap.keepsRules_of_load hload)
  have hrule := hrules.of_get? hentry
  have hresolved := type_of_entry hs hentry htype
  have hfree : builtinSigil ∉ (textOf s.options.type).toList := by
    rw [hresolved]
    exact Text.not_mem_replace (TypeMap.sigil_of_keepsRules hrule) hfield
  refine ⟨s, hs, hresolved, hfree, ?_⟩
  rcases s.rawType_cases with hraw | hraw
  · rwa [hraw]
  · obtain ⟨-, hcontext, hsame, -, -⟩ := parts_of_ofOptions hs
    rw [hraw, fieldType, hcontext, hsame]
    exact hfield

/-- A type with two tokens that stand next to each other, brought by an update, for an annotation
that names its key. -/
theorem resolvedType_without_sigil_twoTokens :
    let below : FieldOptions := { type := "Pair<@type@@type@>" }
    let field : Field :=
      { name := "n", fullName := "M.n", number := 1, kind := .int32, label := .optional
        container := ⟨"f", [0]⟩, typeName := "", target := .scalar, default := none
        annotations := [] }
    let raw : FieldOptions := { type := "$Pair" }
    ∃ first last s, TypeMap.load "type_map < key: 'x' value < type: 'X' > >" = .ok first ∧
      TypeMap.updateAll first [.ofList [("$Pair", below)]] = .ok last ∧
      ofOptions
          { typeMap := last, pool := {}, className := "B", dataParent := "data_.", nameParent := "" }
          field raw = .ok s ∧
        textOf s.options.type = "Pair<int32_tint32_t>" ∧
        builtinSigil ∉ (textOf s.options.type).toList ∧ builtinSigil ∉ s.rawType.toList := by
  intro below field raw
  let first : TypeMap := .ofList [("x", { type := "X" })]
  let last : TypeMap := .ofList [("$Pair", below), ("x", { type := "X" })]
  let context : SetterContext :=
    { typeMap := last, pool := {}, className := "B", dataParent := "data_.", nameParent := "" }
  have hload : TypeMap.load "type_map < key: 'x' value < type: 'X' > >" = .ok first := by
    decide +kernel
  have hupdates : TypeMap.updateAll first [.ofList [("$Pair", below)]] = .ok context.typeMap := by
    decide +kernel
  have hentry : context.typeMap.get? (context.pool.optionsKey raw field) = some below := by
    decide +kernel
  obtain ⟨-, hplain⟩ :=
    resolvedType_without_sigil hload hupdates (by decide +kernel) hentry (by decide)
  obtain ⟨s, hs, htype, hfree, hraw⟩ := hplain (by decide +kernel)
  refine ⟨first, last, s, hload, hupdates, hs, ?_, hfree, hraw⟩
  rw [htype]
  decide +kernel

end Setter

end FluentGen
