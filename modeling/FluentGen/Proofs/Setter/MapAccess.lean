import FluentGen.Proofs.Setter.Scope

/-!
How the methods of a map field store their values. A map takes pairs by its `insert`, and a method
for several values may hand them on, one by one, to the method for a single one. Which of the two is
written depends on the output mode and the conversion alone. Where a loop applies a conversion to the
pairs and does not hand them on, neither is: the loop calls the accessor that adds an element to a
repeated field, and maps have none.
-/

namespace FluentGen.Setter

open Emit (linesOf)

/-- The call that stores a value of a map field. -/
inductive MapAccess where
  /-- The `insert` of the map. -/
  | insert
  /-- The builder's own method for a single value. -/
  | method
  /-- The accessor that adds an element to a repeated field. -/
  | element
  deriving DecidableEq, Repr

/-- The call that the output mode and the conversion lead to. -/
def mapAccess (s : Setter) : MapAccess :=
  match s.options.mode, (textOf s.options.conversion).isEmpty with
  | .foreachAdd, _ => .method
  | .initializerList, false => .method
  | .foreach, false => .element
  | _, _ => .insert

/-- What the storing statement begins with: the call, up to the parenthesis of its arguments. -/
def MapAccess.start (s : Setter) : MapAccess → String
  | .insert =>
    "  " ++ s.context.dataParent ++ "mutable_" ++ Name.accessor s.field.name ++ "()->insert("
  | .method => "    Insert" ++ s.camelName ++ "("
  | .element =>
    "    " ++ (if s.field.isMessage then "*" else "") ++ s.context.dataParent ++ "add_" ++
      Name.accessor s.field.name ++ "("

section Statements

variable {s : Setter}

theorem mapAccess_eq_element_iff :
    s.mapAccess = .element ↔
      s.options.mode = .foreach ∧ (textOf s.options.conversion).isEmpty = false := by
  unfold mapAccess
  cases s.options.mode <;> cases (textOf s.options.conversion).isEmpty <;> simp

theorem addStatement_start (value : String) :
    ∃ rest, "    " ++ s.addStatement value = MapAccess.element.start s ++ rest := by
  unfold addStatement MapAccess.start
  cases s.field.isMessage with
  | true =>
    have hcall : "() = " = "(" ++ ") = " := rfl
    refine ⟨") = " ++ value ++ ";", ?_⟩
    simp only [if_true, String.append_assoc, hcall]
  | false =>
    refine ⟨value ++ ");", ?_⟩
    simp [String.append_assoc]

theorem itemStatement_start (hmap : s.isMap = true) (value : String) :
    ∃ rest, s.itemStatement value = MapAccess.method.start s ++ rest := by
  have hcall : "    Insert" = "    " ++ "Insert" := rfl
  unfold itemStatement MapAccess.start
  rw [hmap, hcall]
  generalize (if s.addsSourceLocation then ", " ++ s.sourceLocationParam else "") = location
  cases (textOf s.options.conversion).isEmpty with
  | true =>
    refine ⟨s.fieldType ++ "(" ++ value ++ ".first, " ++ value ++ ".second)" ++ location ++ ");", ?_⟩
    simp [String.append_assoc]
  | false =>
    refine ⟨value ++ location ++ ");", ?_⟩
    simp [String.append_assoc]

/-- The modes that loop call a method or an accessor for each pair, the others insert. -/
theorem mapAccess_eq (hmap : s.isMap = true) :
    s.mapAccess =
      if s.loops then (if s.traits.foreachAdd then .method else .element) else .insert := by
  unfold mapAccess loops insertsIntoMap traits
  rw [hmap]
  cases s.options.mode <;> cases (textOf s.options.conversion).isEmpty <;> rfl

theorem insertsIntoMap_of_not_loops (hmap : s.isMap = true) (hloops : s.loops = false) :
    s.insertsIntoMap = true := by
  revert hloops
  unfold loops insertsIntoMap traits
  rw [hmap]
  cases s.options.mode <;> cases (textOf s.options.conversion).isEmpty <;> simp [OutputMode.traits]

/-- The storing statement begins with the call that the mode and the conversion lead to. -/
theorem storing_start (hmap : s.isMap = true) (value : String) :
    ∃ rest, s.storing value = s.mapAccess.start s ++ rest := by
  have haccess := mapAccess_eq hmap
  unfold storing
  cases hloops : s.loops with
  | true =>
    rw [hloops, if_pos rfl] at haccess
    rw [haccess, if_pos rfl]
    cases s.traits.foreachAdd with
    | true => exact itemStatement_start hmap value
    | false => exact addStatement_start value
  | false =>
    rw [hloops] at haccess
    rw [haccess, insertsIntoMap_of_not_loops hmap hloops]
    cases s.traits.foreach with
    | true =>
      refine ⟨value ++ ".begin(), " ++ value ++ ".end());", ?_⟩
      simp [MapAccess.start, String.append_assoc]
    | false =>
      refine ⟨value ++ ");", ?_⟩
      simp [MapAccess.start, String.append_assoc]

end Statements

theorem body_of_map {s : Setter} (hmap : s.isMap = true) (value : String) :
    s.body value =
      if s.loops then
        ["  for (const auto& v : key_value_pairs) \x7b", s.storing value, "  \x7d"]
      else [s.storing value] := by
  unfold body
  cases hloops : s.loops with
  | false => rfl
  | true =>
    have hforeach : s.traits.foreach = true := by
      unfold loops at hloops
      exact (Bool.and_eq_true_iff.1 hloops).1
    have hname : s.paramName = "key_value_pairs" := by
      unfold paramName
      rw [hmap, hforeach]
      rfl
    rw [hname]
    rfl

/-- A method of a map field stores by one statement, in a loop or not. It calls the `insert` of the
map or the method for a single value, unless the mode is FOREACH and there is a conversion: then it
calls the accessor that adds to a repeated field. -/
theorem writeBody_of_map (s : Setter) (hmap : s.isMap = true) (hsensible : s.conflict? = none)
    (channel : Channel) :
    (∀ failure, s.setValue = .error failure → s.writeBody channel = ⟨[], .error failure⟩) ∧
    (∀ value, s.setValue = .ok value →
      s.writeBody channel = Emit.lines channel
        (if s.loops then
          ["  for (const auto& v : key_value_pairs) \x7b", s.storing value, "  \x7d"]
        else [s.storing value])) ∧
    (∀ value, ∃ rest, s.storing value = s.mapAccess.start s ++ rest) ∧
    (s.mapAccess = .element ↔
      s.options.mode = .foreach ∧ (textOf s.options.conversion).isEmpty = false) := by
  refine ⟨?_, ?_, storing_start hmap, mapAccess_eq_element_iff⟩
  · intro failure hfailure
    unfold writeBody
    simp only [hfailure, Emit.bind_lift_error, ite_self]
  · intro value hvalue
    rw [writeBody_eq hsensible channel hvalue, body_of_map hmap]

/-- The pairs of a map, each converted: the loop calls `add_ms`, which the message does not have. -/
theorem writeBody_of_map_converted :
    let entry : Schema.Message :=
      { address := ⟨"m.proto", [0, 0]⟩, name := "MsEntry", fullName := "M.MsEntry"
        container := some ⟨"m.proto", [0]⟩, enclosing := ["M"], outermost := "M", fields := []
        enums := [], isMapEntry := true, options := none }
    let field : Schema.Field :=
      { name := "ms", fullName := "M.ms", number := 1, kind := .message, label := .repeated
        container := ⟨"m.proto", [0]⟩, typeName := "M.MsEntry", target := .message entry.address
        default := none, annotations := [] }
    let context : SetterContext :=
      { typeMap := {}, pool := { messages := [entry] }, className := "B", dataParent := "data_."
        nameParent := "" }
    let raw : FieldOptions := { output := some .foreach, conversion := "Conv(@value@)" }
    let s : Setter := ⟨context, field, raw, none, raw⟩
    s.isMap = true ∧ s.conflict? = none ∧ s.mapAccess = .element ∧
      MapAccess.element.start s = "    *data_.add_ms(" ∧
      linesOf .header (s.writeBody .header) =
        ["  for (const auto& v : key_value_pairs) \x7b", "    *data_.add_ms() = Conv(v);",
          "  \x7d"] := by
  intro entry field context raw s
  have hmap : s.isMap = true := by decide +kernel
  have hsensible : s.conflict? = none := by decide +kernel
  have hvalue : s.setValue = .ok "Conv(v)" := by decide +kernel
  obtain ⟨-, hwritten, -, helement⟩ := writeBody_of_map s hmap hsensible .header
  refine ⟨hmap, hsensible, helement.2 ⟨rfl, by decide +kernel⟩, by decide +kernel, ?_⟩
  rw [hwritten "Conv(v)" hvalue]
  decide +kernel

end FluentGen.Setter
