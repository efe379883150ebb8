import FluentGen.Proofs.Setter.Declaration
import FluentGen.Proofs.Setter.Layers
import FluentGen.Proofs.Setter.Scope
import FluentGen.Proofs.TypeMap.Builtin
import Mathlib.Data.List.Nodup

/-!
How the methods of a class are told apart: by their names and by the types of their parameters. A
field without annotations has a method that takes its value, perhaps an overload that takes another
builder, and perhaps a method that converts the value from another type.
-/

namespace FluentGen

open Emit (linesOf)
open Schema (Field Pool)

/-- The name of a method and the types of its parameters. A type that is deduced is missing. -/
structure Profile where
  name : String
  parameters : List (Option String)
  deriving DecidableEq, Repr

/-- What the name of a method begins with: whether values are inserted, added or set. -/
def Schema.Pool.verb (pool : Pool) (f : Field) : String :=
  if pool.isMap f then "Insert" else if f.isRepeated then "Add" else "Set"

namespace Setter

variable {s : Setter}

def keyParameter (s : Setter) : String :=
  Name.parameter ((s.context.pool.mapKey? s.field).any (·.kind == .string))
    (((s.context.pool.mapKey? s.field).map s.context.pool.cppType).getD "")

/-- The profile of the overload for other builders, if there is one in the header. -/
def builderProfile? (s : Setter) : Option Profile :=
  if s.context.makeInterface || !s.setsFromBuilder then none
  else some ⟨s.methodName, if s.isMap then [some s.keyParameter, none] else [none]⟩

/-- What the header declares for a plain method. -/
def profiles (s : Setter) : List Profile :=
  ⟨s.methodName, [some (s.parameterType true)]⟩ :: s.builderProfile?.toList

/-- The parameters of the overload for other builders. -/
def builderParams (s : Setter) : String :=
  if s.isMap then s.keyParameter ++ " key, Builder builder" else "Builder builder"

/-- The template head of the overload for other builders, which takes those that give away data of
a type. -/
def builderTemplate (type : String) : List String :=
  ["", "template <", "    class Builder,", "    class = std::enable_if_t<std::is_same_v<",
    "        std::invoke_result_t<", "            decltype(&Builder::MaybeGetRawData), Builder>,",
    "        absl::StatusOr<" ++ type ++ ">>>>"]

/-- The lines of a plain method in the header: the one that declares it, and those of the overload
for other builders with its body. -/
def headerLines (s : Setter) (type : String) (body : List String) : List String :=
  (s.context.className ++ "& " ++ s.methodName ++ "(" ++
    (s.parameterType true ++ " " ++ s.paramName) ++ ")" ++
    (if s.context.makeInterface then " override" else "") ++ ";") ::
  match s.builderProfile? with
  | none => []
  | some p =>
    builderTemplate type ++
      (s.context.className ++ "& " ++ p.name ++ "(" ++ s.builderParams ++ ") \x7b") :: body

theorem overload_eq (s : Setter) :
    ∃ type body, s.overload =
      match s.builderProfile? with
      | none => []
      | some p =>
        builderTemplate type ++
          (s.context.className ++ "& " ++ p.name ++ "(" ++ s.builderParams ++ ") \x7b") :: body := by
  unfold overload writeSetFromBuilder builderProfile? builderParams
  cases s.context.makeInterface with
  | true => exact ⟨"", [], rfl⟩
  | false =>
    cases s.setsFromBuilder with
    | false => exact ⟨"", [], rfl⟩
    | true =>
      cases s.isMap with
      | true => exact ⟨_, _, rfl⟩
      | false => exact ⟨_, _, rfl⟩

theorem name_of_mem_profiles {p : Profile} (h : p ∈ s.profiles) : p.name = s.methodName := by
  unfold profiles builderProfile? at h
  rcases List.mem_cons.1 h with rfl | h
  · rfl
  · split at h
    · cases h
    · rw [List.mem_singleton.1 h]

/-- An overload for other builders deduces a type, the method for the value does not. -/
theorem parameters_of_builderProfile? {p : Profile} (h : s.builderProfile? = some p) :
    none ∈ p.parameters := by
  unfold builderProfile? at h
  split at h
  · cases h
  · cases h
    dsimp only
    split
    · exact List.mem_cons_of_mem _ List.mem_cons_self
    · exact List.mem_cons_self

theorem parameterType_of_mem_profiles {p : Profile} (h : p ∈ s.profiles) {type : String}
    (hp : p.parameters = [some type]) : s.parameterType true = type := by
  rcases List.mem_cons.1 h with rfl | h
  · exact Option.some.inj (List.cons.inj hp).1
  · have hdeduced := parameters_of_builderProfile? (Option.mem_toList.1 h)
    rw [hp] at hdeduced
    simp at hdeduced

theorem nodup_profiles (s : Setter) : s.profiles.Nodup := by
  unfold profiles
  cases hbuilder : s.builderProfile? with
  | none => exact List.nodup_singleton _
  | some p =>
    rw [Option.toList_some, List.nodup_cons, List.mem_singleton]
    refine ⟨?_, List.nodup_singleton p⟩
    rintro rfl
    simpa using parameters_of_builderProfile? hbuilder

theorem profiles_of_later (h : s.context.firstMethod = false) :
    s.profiles = [⟨s.methodName, [some (s.parameterType true)]⟩] := by
  have hnone : s.builderProfile? = none := by
    unfold builderProfile? setsFromBuilder
    simp [h]
  rw [profiles, hnone]
  rfl

section Plain

/-- A method that is declared and defined for the value of its field, under the field's name. -/
structure IsPlain (s : Setter) : Prop where
  raw : s.raw.IsPlain
  options : s.options.IsPlain

theorem IsPlain.traits (h : s.IsPlain) : s.traits = OutputMode.both.traits := by
  rw [Setter.traits, FieldOptions.mode, h.options.output]
  rfl

theorem IsPlain.methodName (h : s.IsPlain) :
    s.methodName = s.context.pool.verb s.field ++
      (s.context.nameParent ++ Name.camelCase s.field.name) := by
  have hname : textOf s.options.name = "" := by
    rw [h.options.name]
    rfl
  have hcamel : s.camelName "" = s.context.nameParent ++ Name.camelCase s.field.name := rfl
  unfold Setter.methodName Pool.verb Setter.isMap
  rw [hname, hcamel]
  split
  · rfl
  · split
    · rfl
    · rfl

/-- The header has the declaration of a plain method, and the overload behind it. -/
theorem IsPlain.header (h : s.IsPlain) (hwritten : s.write.result = .ok ()) :
    ∃ type body, linesOf .header s.write = s.headerLines type body := by
  have hfree : s.fixedValue.isEmpty = true := by
    rw [fixedValue, h.options.value]
    rfl
  have hplace : s.addsSourceLocation = false := by
    rw [addsSourceLocation, h.options.addSourceLocation]
    rfl
  have hunmarked : s.asksOverride = false := by
    rw [asksOverride, h.raw.override]
    rfl
  have hparam : s.methodParam .header = s.parameterType true ++ " " ++ s.paramName := by
    rw [← valueParam_eq hfree, methodParam, hplace]
    rfl
  have hdeclared := linesOf_write_of_declared (by rw [h.traits]; rfl) (by rw [h.traits]; rfl)
    hwritten
  obtain ⟨type, body, hoverload⟩ := s.overload_eq
  refine ⟨type, body, ?_⟩
  rw [hdeclared, hoverload, headerLines, declaration, declarationMark_header, declared, hparam,
    hunmarked]
  simp

theorem isPlain_of_ofOptions {context : SetterContext} {field : Field} {raw : FieldOptions}
    (hs : ofOptions context field raw = .ok s) (hraw : raw.IsPlain)
    (hmap : context.typeMap = TypeMap.file TypeMap.builtin) : s.IsPlain := by
  obtain ⟨hkey, -, -, rfl, hoptions⟩ := parts_of_ofOptions hs
  rw [hmap] at hoptions
  have hbelow : (((TypeMap.file TypeMap.builtin).get?
      (context.pool.optionsKey s.raw field)).getD {}).IsPlain := by
    cases hentry : (TypeMap.file TypeMap.builtin).get? (context.pool.optionsKey s.raw field) with
    | none => exact ⟨rfl, rfl, rfl, rfl, rfl⟩
    | some below => exact TypeMap.isPlain_of_get?_builtin hentry hkey
  refine ⟨hraw, ?_⟩
  rw [hoptions]
  unfold FieldOptions.merge
  constructor
  · simp [hraw.name, hbelow.name]
  · simp [hraw.value, hbelow.value]
  · simp [hraw.output, hbelow.output]
  · simp [hraw.addSourceLocation, hbelow.addSourceLocation]
  · simp [hraw.override, hbelow.override]

end Plain

section Types

variable {context : SetterContext} {field : Field}

theorem parameterType_of_plain (h : s.IsPlain) :
    s.parameterType true =
      if (textOf s.options.decoratedType).isEmpty then
        Name.parameter ((Text.contains "::" s.rawType || s.rawType == "string") &&
          s.field.kind != .enum) (s.relative s.rawType)
      else textOf s.options.decoratedType := by
  have hlist : s.traits.initializerList = false := by rw [h.traits]; rfl
  have htemplate : s.traits.template = false := by rw [h.traits]; rfl
  unfold parameterType
  rw [hlist, htemplate]
  cases hdecorated : (textOf s.options.decoratedType).isEmpty with
  | true => simp [hdecorated]
  | false => simp [hdecorated]

/-- The method that converts a value takes it by value. -/
theorem parameterType_of_automatic {o : FieldOptions} (hs : ofOptions context field o = .ok s)
    (hmap : context.typeMap = TypeMap.file TypeMap.builtin)
    {type : String} (ho : (TypeMap.file TypeMap.builtin).automaticType? type = some o) :
    ∃ converted, (type, converted) ∈ TypeMap.convertedTypes ∧
      s.parameterType true = converted := by
  obtain ⟨converted, hmem, -, hdecorated, hplain⟩ := TypeMap.automaticType?_builtin ho
  have hshown : ∀ c ∈ TypeMap.convertedTypes, c.2.isEmpty = false := by decide
  obtain ⟨-, -, -, -, hoptions⟩ := parts_of_ofOptions hs
  have htext : textOf s.options.decoratedType = converted := by
    rw [hoptions]
    simp [FieldOptions.merge, hdecorated, textOf]
  refine ⟨converted, hmem, ?_⟩
  rw [parameterType_of_plain (isPlain_of_ofOptions hs hplain hmap), htext, hshown _ hmem]
  rfl

/-- The method that takes a value as it is has a parameter of another type. -/
theorem parameterType_of_converted (hs : ofOptions context field {} = .ok s)
    (hmap : context.typeMap = TypeMap.file TypeMap.builtin) {c : String × String}
    (hc : c ∈ TypeMap.convertedTypes) (htype : context.pool.cppType field = c.1) :
    s.parameterType true ≠ c.2 := by
  have hplain := isPlain_of_ofOptions hs ⟨rfl, rfl, rfl, rfl, rfl⟩ hmap
  obtain ⟨-, hcontext, hfield, -, hoptions⟩ := parts_of_ofOptions hs
  have hkey : context.pool.optionsKey {} field = c.1 := htype
  rw [hmap, hkey, (TypeMap.get?_builtin_of_converted hc).1] at hoptions
  have htext : textOf s.options.decoratedType = "" := by
    rw [hoptions]
    rfl
  have hraw : s.rawType = c.1 := by
    rw [rawType, hoptions, fieldType, hcontext, hfield, htype]
    rfl
  have hshort : ∀ c ∈ TypeMap.convertedTypes, ¬ c.2.toList <:+ c.1.toList ∧
      c.2.toList.head? ≠ some 'c' := by decide
  obtain ⟨hsuffix, hhead⟩ := hshort c hc
  rw [parameterType_of_plain hplain, htext, hraw, if_pos (by rfl), Name.parameter]
  intro heq
  split at heq
  · apply hhead
    rw [← heq]
    simp
  · apply hsuffix
    rw [← heq]
    exact Name.relativeTo_suffix _ _

end Types

end Setter

end FluentGen
