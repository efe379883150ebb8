import FluentGen.Proofs.Setter.Guard

/-!
The names that a method uses for its value. The parameter has one name, the variable of a loop over
it another, and the expressions of the guard and of the body are made for one of them. What is
stored always stands where its name is bound; the guard of a method that takes several values asks
for a name that is not, unless the values are inserted into a map as they are.
-/

namespace FluentGen.Setter

open Emit (linesOf)

/-- The name of the parameter for the value. -/
def paramName (s : Setter) : String :=
  (if s.isMap then "key_value_pair" else "value") ++ if s.traits.foreach then "s" else ""

/-- The variable of the loop over the values. -/
def loopVariable : String := "v"

/-- Whether the values are stored one by one, in a loop. -/
def loops (s : Setter) : Bool :=
  s.traits.foreach && !(s.insertsIntoMap && (textOf s.options.conversion).isEmpty)

/-- Whether the guard asks for a single value although the parameter holds several. -/
def guardsSingle (s : Setter) : Bool :=
  s.traits.foreach && !s.insertsIntoMap

/-- The statement that stores a value. -/
def storing (s : Setter) (value : String) : String :=
  let name := Name.accessor s.field.name
  if s.loops then
    if s.traits.foreachAdd then s.itemStatement value else "    " ++ s.addStatement value
  else if s.insertsIntoMap then
    let insert := "  " ++ s.context.dataParent ++ "mutable_" ++ name ++ "()->insert("
    if s.traits.foreach then insert ++ value ++ ".begin(), " ++ value ++ ".end());"
    else insert ++ value ++ ");"
  else if s.field.isRepeated then "  " ++ s.addStatement value
  else if s.field.isMessage then
    "  *" ++ s.context.dataParent ++ "mutable_" ++ name ++ "() = " ++ value ++ ";"
  else "  " ++ s.context.dataParent ++ "set_" ++ name ++ "(" ++ value ++ ");"

/-- The body of the method: the statement, in a loop over the parameter if there is one. -/
def body (s : Setter) (value : String) : List String :=
  if s.loops then
    ["  for (const auto& " ++ loopVariable ++ " : " ++ s.paramName ++ ") \x7b", s.storing value,
      "  \x7d"]
  else [s.storing value]

section Names

variable {s : Setter}

theorem foreachAdd_of_single (mode : OutputMode) (h : mode.traits.foreach = false) :
    mode.traits.foreachAdd = false := by
  cases mode <;> simp_all [OutputMode.traits]

theorem insertsIntoMap_of_single (hmap : s.isMap = true) (hsingle : s.traits.foreach = false) :
    s.insertsIntoMap = true := by
  have hadd : s.traits.foreachAdd = false := foreachAdd_of_single s.options.mode hsingle
  simp [insertsIntoMap, hmap, hadd]

theorem isMap_of_insertsIntoMap (h : s.insertsIntoMap = true) : s.isMap = true := by
  unfold insertsIntoMap at h
  exact (Bool.and_eq_true_iff.1 h).1

theorem guardsSingle_iff :
    s.guardsSingle = true ↔
      s.traits.foreach = true ∧ (s.isMap = true → s.options.mode = .foreachAdd) := by
  unfold guardsSingle insertsIntoMap traits
  cases s.isMap with
  | false => simp
  | true => cases s.options.mode <;> simp [OutputMode.traits]

theorem mapParamName_eq (hmap : s.isMap = true) : s.mapParamName = s.paramName := by
  unfold mapParamName paramName
  rw [if_pos hmap]
  cases s.traits.foreach with
  | true => rfl
  | false => rfl

theorem isRepeated_of_foreach (hsensible : s.conflict? = none)
    (hforeach : s.traits.foreach = true) : s.field.isRepeated = true := by
  by_contra hsingle
  rw [Bool.not_eq_true] at hsingle
  simp [conflict?, hforeach, hsingle] at hsensible

theorem valueParam_eq (hfree : s.fixedValue.isEmpty = true) :
    s.valueParam = s.parameterType true ++ " " ++ s.paramName := by
  unfold valueParam paramName
  rw [if_pos hfree, String.append_assoc]

theorem predicateValue_eq (hfree : s.fixedValue.isEmpty = true) :
    s.predicateValue = if s.guardsSingle then "value" else s.paramName := by
  have hnone : ¬ (!s.fixedValue.isEmpty) = true := by simp [hfree]
  unfold predicateValue guardsSingle
  rw [if_neg hnone]
  cases hinserts : s.insertsIntoMap with
  | true =>
    rw [if_pos rfl, mapParamName_eq (isMap_of_insertsIntoMap hinserts)]
    simp
  | false =>
    cases hforeach : s.traits.foreach with
    | true => rfl
    | false =>
      have hplain : s.isMap = false := by
        by_contra hmap
        rw [Bool.not_eq_false] at hmap
        simp [insertsIntoMap_of_single hmap hforeach] at hinserts
      simp [paramName, hplain, hforeach]

/-- Several values never go by the name of a single one. -/
theorem paramName_ne_value (h : s.traits.foreach = true) : s.paramName ≠ "value" := by
  unfold paramName
  rw [if_pos h]
  cases s.isMap with
  | true => decide
  | false => decide

theorem unconverted_eq (hfree : s.fixedValue.isEmpty = true) :
    s.unconverted = if s.loops then loopVariable else s.paramName := by
  have hnone : ¬ (!s.fixedValue.isEmpty) = true := by simp [hfree]
  unfold unconverted loops loopVariable
  rw [if_neg hnone]
  cases hinserts : s.insertsIntoMap with
  | true =>
    rw [mapParamName_eq (isMap_of_insertsIntoMap hinserts)]
    cases hforeach : s.traits.foreach with
    | true => cases (textOf s.options.conversion).isEmpty <;> rfl
    | false => rfl
  | false =>
    cases hforeach : s.traits.foreach with
    | true => rfl
    | false =>
      have hplain : s.isMap = false := by
        by_contra hmap
        rw [Bool.not_eq_false] at hmap
        simp [insertsIntoMap_of_single hmap hforeach] at hinserts
      simp [paramName, hplain, hforeach]

theorem lookup_valueToken (name default : String) :
    (s.replacements name default).lookup TypeMap.valueToken = some name := by
  have hne : (TypeMap.valueToken == TypeMap.typeToken) = false := by decide
  simp [replacements, List.lookup_cons, hne]

end Names

/-- What is written as the body is the storing statement for the stored expression, in its loop if
the values are stored one by one. -/
theorem writeBody_eq {s : Setter} (hsensible : s.conflict? = none) (channel : Channel)
    {value : String} (hvalue : s.setValue = .ok value) :
    s.writeBody channel = Emit.lines channel (s.body value) := by
  unfold writeBody body storing loops
  simp only [hvalue, Emit.bind_lift_ok]
  cases hforeach : s.traits.foreach with
  | false =>
    cases hinserts : s.insertsIntoMap with
    | true => rfl
    | false =>
      have hplain : s.isMap = false := by
        by_contra hmap
        rw [Bool.not_eq_false] at hmap
        simp [insertsIntoMap_of_single hmap hforeach] at hinserts
      rw [hplain]
      cases s.field.isRepeated <;> cases s.field.isMessage <;> rfl
  | true =>
    have hloop : (if s.isMap then "key_value_pairs" else "values") = s.paramName := by
      unfold paramName
      rw [hforeach]
      cases s.isMap <;> rfl
    rw [isRepeated_of_foreach hsensible hforeach, ← hloop]
    cases hinserts : s.insertsIntoMap with
    | true =>
      cases (textOf s.options.conversion).isEmpty <;> rfl
    | false => rfl

/-- A method without a fixed value has one parameter for it. What is stored is made of the parameter,
or of the loop variable in a loop over it. The guard is made of the parameter too, but where a method
takes several values, which are not a map's or are added one by one, it asks for a `value` that is
not there. -/
theorem operands_of_method (s : Setter) (hsensible : s.conflict? = none)
    (hfree : s.fixedValue.isEmpty = true) (channel : Channel) :
    s.valueParam = s.parameterType true ++ " " ++ s.paramName ∧
    (∀ name default, (s.replacements name default).lookup TypeMap.valueToken = some name) ∧
    s.setValue =
      s.apply (textOf s.options.conversion) (if s.loops then loopVariable else s.paramName) ∧
    (∀ value, s.setValue = .ok value → s.writeBody channel = Emit.lines channel (s.body value)) ∧
    s.predicate =
      s.apply (textOf s.options.predicate) (if s.guardsSingle then "value" else s.paramName) ∧
    ((textOf s.raw.predicate).isEmpty = false → (s.writePredicate channel).result = .ok () →
      ∃ predicate, s.predicate = .ok predicate ∧
        linesOf channel (s.writePredicate channel) =
          if s.context.useStatus then recordingGuard predicate else droppingGuard predicate) ∧
    (s.guardsSingle = true ↔
      s.traits.foreach = true ∧ (s.isMap = true → s.options.mode = .foreachAdd)) ∧
    (s.guardsSingle = true → s.paramName ≠ "value") := by
  refine ⟨valueParam_eq hfree, lookup_valueToken, ?_, ?_, ?_, linesOf_writePredicate,
    guardsSingle_iff, ?_⟩
  · rw [setValue, unconverted_eq hfree]
  · intro value hvalue
    exact writeBody_eq hsensible channel hvalue
  · rw [predicate, predicateValue_eq hfree]
  · intro hsingle
    exact paramName_ne_value (guardsSingle_iff.1 hsingle).1

/-- A method that adds all numbers of a container, each of them checked: the numbers are added under
the name of the loop variable, and the guard asks for a name that is neither that nor the
parameter's. -/
theorem operands_of_method_container :
    let field : Schema.Field :=
      { name := "xs", fullName := "M.xs", number := 1, kind := .int32, label := .repeated
        container := ⟨"m.proto", [0]⟩, typeName := "", target := .scalar, default := none
        annotations := [] }
    let context : SetterContext :=
      { typeMap := {}, pool := {}, className := "B", dataParent := "data_.", nameParent := "" }
    let raw : FieldOptions := { output := some .foreach, predicate := "Check(@value@)" }
    let s : Setter := ⟨context, field, raw, none, raw⟩
    s.conflict? = none ∧ s.fixedValue.isEmpty = true ∧
      s.valueParam = s.parameterType true ++ " " ++ s.paramName ∧
      s.valueParam = "const Container& values" ∧
      s.writeBody .header = Emit.lines .header
        ["  for (const auto& v : values) \x7b", "    data_.add_xs(v);", "  \x7d"] ∧
      linesOf .header (s.writePredicate .header) = droppingGuard "Check(value)" := by
  intro field context raw s
  have hsensible : s.conflict? = none := by decide +kernel
  have hfree : s.fixedValue.isEmpty = true := by decide +kernel
  obtain ⟨hparam, -, -, hbody, -, hguard, -, -⟩ := operands_of_method s hsensible hfree .header
  refine ⟨hsensible, hfree, hparam, by decide +kernel, ?_, ?_⟩
  · have hvalue : s.setValue = .ok "v" := by decide +kernel
    rw [hbody "v" hvalue]
    exact congrArg (Emit.lines .header) (by decide +kernel)
  · obtain ⟨predicate, hpredicate, hlines⟩ := hguard (by decide +kernel) (by decide +kernel)
    have hmade : s.predicate = .ok "Check(value)" := by decide +kernel
    rw [hmade] at hpredicate
    rw [hlines, ← Except.ok.inj hpredicate]
    rfl

end FluentGen.Setter
