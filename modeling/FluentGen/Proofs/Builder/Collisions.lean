import FluentGen.Proofs.Builder.Completion
import FluentGen.Proofs.Builder.Methods
import FluentGen.Proofs.Setter.Profile
import Mathlib.Data.List.Pairwise

/-!
Methods that are declared twice. The name of a method is what the names along its route run together
to, and nothing records which names are taken. So a class has two methods of one profile exactly if
two routes run together to one name. Names of single words rule that out.
-/

namespace FluentGen.Builder

open Emit (linesOf)
open Schema (Field Message Address)

def profilesOf (b : Builder) (v : Visit) : List Profile :=
  (b.methodsOf v).flatMap Setter.profiles

/-- What the header declares in a run. -/
def profiles (b : Builder) : List Profile :=
  b.methods.flatMap Setter.profiles

section Visit

variable {b : Builder} {v : Visit} {s : Setter}

/-- The methods of a field without annotations: the one for its value, and the one that converts. -/
theorem methodsOf_of_unannotated (hplain : v.field.annotations = []) :
    b.methodsOf v =
      (Setter.ofOptions (b.context v.dataParent v.nameParent true) v.field {}).toOption.toList ++
        ((b.typeMap.automaticType? (b.pool.cppType v.field)).bind fun a =>
          (Setter.ofOptions (b.context v.dataParent v.nameParent false) v.field
            a).toOption).toList := by
  have hnone : v.field.annotations.isEmpty = true := by rw [hplain]; rfl
  unfold methodsOf optionSets settersFor
  rw [if_pos hnone, List.filterMap_cons]
  generalize (Setter.ofOptions (b.context v.dataParent v.nameParent true) v.field {}).toOption =
    plain
  cases b.typeMap.automaticType? (b.pool.cppType v.field) with
  | none => cases plain <;> rfl
  | some a =>
    rw [Option.map_some, Option.toList_some, List.filterMap_cons, Option.bind_some]
    generalize (Setter.ofOptions (b.context v.dataParent v.nameParent false) v.field a).toOption =
      converting
    cases plain <;> cases converting <;> rfl

theorem ok_of_mem_toOption {α ε : Type} {result : Except ε α} {a : α}
    (h : a ∈ result.toOption.toList) : result = .ok a := by
  cases result with
  | error e => cases h
  | ok a' => rw [List.mem_singleton.1 h]

theorem origin_of_mem_methodsOf (hplain : v.field.annotations = []) (hs : s ∈ b.methodsOf v) :
    Setter.ofOptions (b.context v.dataParent v.nameParent true) v.field {} = .ok s ∨
      ∃ a, b.typeMap.automaticType? (b.pool.cppType v.field) = some a ∧
        Setter.ofOptions (b.context v.dataParent v.nameParent false) v.field a = .ok s := by
  rw [methodsOf_of_unannotated hplain] at hs
  rcases List.mem_append.1 hs with hs | hs
  · exact Or.inl (ok_of_mem_toOption hs)
  · right
    cases ha : b.typeMap.automaticType? (b.pool.cppType v.field) with
    | none =>
      rw [ha] at hs
      cases hs
    | some a =>
      rw [ha] at hs
      exact ⟨a, rfl, ok_of_mem_toOption hs⟩

variable (hmap : b.typeMap = TypeMap.file TypeMap.builtin)

include hmap

theorem isPlain_of_mem_methodsOf (hplain : v.field.annotations = []) (hs : s ∈ b.methodsOf v) :
    s.IsPlain := by
  rcases origin_of_mem_methodsOf hplain hs with hmade | ⟨a, ha, hmade⟩
  · exact Setter.isPlain_of_ofOptions hmade ⟨rfl, rfl, rfl, rfl, rfl⟩ hmap
  · rw [hmap] at ha
    obtain ⟨_, -, -, -, hautomatic⟩ := TypeMap.automaticType?_builtin ha
    exact Setter.isPlain_of_ofOptions hmade hautomatic hmap

theorem name_of_mem_profilesOf (hplain : v.field.annotations = []) {p : Profile}
    (hp : p ∈ b.profilesOf v) :
    p.name = b.pool.verb v.field ++ (v.nameParent ++ Name.camelCase v.field.name) := by
  obtain ⟨s, hs, hp⟩ := List.mem_flatMap.1 hp
  have hcontext : s.context.pool = b.pool ∧ s.context.nameParent = v.nameParent ∧
      s.field = v.field := by
    rcases origin_of_mem_methodsOf hplain hs with hmade | ⟨a, -, hmade⟩
    · obtain ⟨-, hcontext, hfield, -⟩ := Setter.parts_of_ofOptions hmade
      rw [hcontext, hfield]
      exact ⟨rfl, rfl, rfl⟩
    · obtain ⟨-, hcontext, hfield, -⟩ := Setter.parts_of_ofOptions hmade
      rw [hcontext, hfield]
      exact ⟨rfl, rfl, rfl⟩
  obtain ⟨hpool, hparent, hfield⟩ := hcontext
  rw [Setter.name_of_mem_profiles hp, (isPlain_of_mem_methodsOf hmap hplain hs).methodName, hpool,
    hparent, hfield]

/-- Nothing is declared twice for one visit: an overload deduces the type of the other builder, and
the method that converts takes another type. -/
theorem nodup_profilesOf (hplain : v.field.annotations = []) : (b.profilesOf v).Nodup := by
  unfold profilesOf
  rw [List.nodup_flatMap]
  refine ⟨fun s _ => s.nodup_profiles, ?_⟩
  rw [methodsOf_of_unannotated hplain]
  refine List.pairwise_append.2 ⟨?_, ?_, ?_⟩
  · cases Setter.ofOptions (b.context v.dataParent v.nameParent true) v.field {} <;> simp
  · generalize ((b.typeMap.automaticType? (b.pool.cppType v.field)).bind fun a =>
      (Setter.ofOptions (b.context v.dataParent v.nameParent false) v.field a).toOption) = converting
    cases converting <;> simp
  · intro s hs t ht p hps hpt
    have hvalue := ok_of_mem_toOption hs
    obtain ⟨a, ha, ht⟩ := Option.bind_eq_some_iff.1 (Option.mem_toList.1 ht)
    have hconverting := ok_of_mem_toOption (Option.mem_toList.2 ht)
    rw [hmap] at ha
    obtain ⟨converted, hmem, htype⟩ := Setter.parameterType_of_automatic hconverting hmap ha
    have hlater : t.context.firstMethod = false := by
      rw [(Setter.parts_of_ofOptions hconverting).2.1]
      rfl
    rw [Setter.profiles_of_later hlater, List.mem_singleton] at hpt
    have hsame : s.parameterType true = converted := by
      rw [← htype]
      exact Setter.parameterType_of_mem_profiles hps (by rw [hpt])
    exact Setter.parameterType_of_converted hvalue hmap hmem rfl hsame

end Visit

section Verbs

variable {b : Builder}

theorem verb_cases (b : Builder) (f : Field) :
    b.pool.verb f = "Insert" ∨ b.pool.verb f = "Add" ∨ b.pool.verb f = "Set" := by
  unfold Schema.Pool.verb
  split
  · exact Or.inl rfl
  · split
    · exact Or.inr (Or.inl rfl)
    · exact Or.inr (Or.inr rfl)

/-- The verbs begin with different letters, so a name tells its verb. -/
theorem verb_cancel {f g : Field} {first second : String}
    (h : b.pool.verb f ++ first = b.pool.verb g ++ second) :
    b.pool.verb f = b.pool.verb g ∧ first = second := by
  have hletter := congrArg (·.toList.head?) h
  have hsame : b.pool.verb f = b.pool.verb g := by
    rcases verb_cases b f with hf | hf | hf <;> rcases verb_cases b g with hg | hg | hg <;>
      rw [hf, hg] at hletter ⊢ <;> simp at hletter
  rw [hsame] at h
  exact ⟨hsame, (String.append_right_inj _).1 h⟩

end Verbs

/-- Something is declared for two routes. -/
def Clash (b : Builder) (r r' : Route) : Prop :=
  ∃ p, p ∈ b.profilesOf (b.visitOf r) ∧ p ∈ b.profilesOf (b.visitOf r')

section Runs

variable {b : Builder} {r r' : Route}

theorem profiles_eq (h : b.write.result = .ok ()) :
    b.profiles = (b.routesFrom (b.pool.messages.length + 2) [] b.root).flatMap fun r =>
      b.profilesOf (b.visitOf r) := by
  rw [profiles, methods, visits_recorded b h, List.flatMap_assoc, List.flatMap_map]
  rfl

theorem mem_routes_iff :
    r ∈ b.routesFrom (b.pool.messages.length + 2) [] b.root ↔ b.Admits r := by
  rw [mem_routesFrom_iff b.suffices_root List.mem_cons_self, admitsFrom_root_iff]

theorem clash_spelled (hmap : b.typeMap = TypeMap.file TypeMap.builtin) (hplain : b.Unannotated)
    (h : b.Admits r) (h' : b.Admits r') (hclash : b.Clash r r') :
    b.pool.verb r.field = b.pool.verb r'.field ∧ r.spelled = r'.spelled := by
  obtain ⟨p, hp, hp'⟩ := hclash
  have hname := name_of_mem_profilesOf hmap (v := b.visitOf r) (h.annotations hplain) hp
  have hname' := name_of_mem_profilesOf hmap (v := b.visitOf r') (h'.annotations hplain) hp'
  have hboth := hname.symm.trans hname'
  have hparent : ∀ {s : Route}, b.Admits s →
      (b.visitOf s).nameParent ++ Name.camelCase (b.visitOf s).field.name =
        textOf b.options.rootName ++ s.spelled := fun hs => nameParent_visitOf hplain hs
  rw [hparent h, hparent h'] at hboth
  obtain ⟨hverb, hspelled⟩ := verb_cancel hboth
  exact ⟨hverb, (String.append_right_inj _).1 hspelled⟩

/-- A profile is declared twice exactly if two routes declare it. -/
theorem not_nodup_profiles_iff (hmap : b.typeMap = TypeMap.file TypeMap.builtin)
    (hplain : b.Unannotated) (h : b.write.result = .ok ()) :
    ¬ b.profiles.Nodup ↔ ∃ r r', b.Admits r ∧ b.Admits r' ∧ r ≠ r' ∧ b.Clash r r' := by
  rw [profiles_eq h, List.nodup_flatMap]
  constructor
  · intro hnot
    by_contra hnone
    apply hnot
    refine ⟨fun r hr => nodup_profilesOf hmap ((mem_routes_iff.1 hr).annotations hplain), ?_⟩
    refine (increasing_routesFrom b _ _ _).imp_of_mem ?_
    intro r r' hr hr' hlt p hp hp'
    refine hnone ⟨r, r', mem_routes_iff.1 hr, mem_routes_iff.1 hr', ?_, p, hp, hp'⟩
    rintro rfl
    exact List.lt_irrefl r.positions hlt
  · rintro ⟨r, r', hr, hr', hne, p, hp, hp'⟩ ⟨-, hapart⟩
    have hsymm : Std.Symm (Function.onFun List.Disjoint fun r => b.profilesOf (b.visitOf r)) :=
      ⟨fun _ _ hdisjoint _ hp hp' => hdisjoint hp' hp⟩
    exact hapart.forall (mem_routes_iff.2 hr) (mem_routes_iff.2 hr') hne hp hp'

end Runs

/-- With the built-in type map, and without annotations, a run ends well. Its header declares one
method after the other, each with its name and the types of its parameters. It declares the same ones
twice exactly if two different routes run together to one name, and their last fields have a method
of one verb and of the same parameter types. It never does if the names of all fields are single
words. -/
theorem declared_twice_iff (b : Builder) (hmap : b.typeMap = TypeMap.file TypeMap.builtin)
    (hplain : b.Unannotated) (hreadable : b.Readable) :
    b.write.result = .ok () ∧
      linesOf .header b.write = (b.methods.flatMap fun s => linesOf .header s.write) ++ [""] ∧
      (∀ s ∈ b.methods, ∃ type body, linesOf .header s.write = s.headerLines type body) ∧
      (¬ b.profiles.Nodup ↔ ∃ r r', b.Admits r ∧ b.Admits r' ∧ r ≠ r' ∧ r.spelled = r'.spelled ∧
        b.pool.verb r.field = b.pool.verb r'.field ∧ b.Clash r r') ∧
      (b.SingleWords → b.profiles.Nodup) := by
  have h := ends_write hmap hplain hreadable
  have hclash := not_nodup_profiles_iff hmap hplain h
  refine ⟨h, linesOf_methods .header h, ?_, ?_, ?_⟩
  · intro s hs
    obtain ⟨v, hv, hsv⟩ := List.mem_flatMap.1 hs
    rw [visits_recorded b h] at hv
    obtain ⟨r, hr, rfl⟩ := List.mem_map.1 hv
    have hannotations := (mem_routes_iff.1 hr).annotations hplain
    exact (isPlain_of_mem_methodsOf hmap hannotations hsv).header (written_of_mem_methods h hs)
  · rw [hclash]
    constructor
    · rintro ⟨r, r', hr, hr', hne, hboth⟩
      obtain ⟨hverb, hspelled⟩ := clash_spelled hmap hplain hr hr' hboth
      exact ⟨r, r', hr, hr', hne, hspelled, hverb, hboth⟩
    · rintro ⟨r, r', hr, hr', hne, -, -, hboth⟩
      exact ⟨r, r', hr, hr', hne, hboth⟩
  · intro hwords
    by_contra htwice
    obtain ⟨r, r', hr, hr', hne, hboth⟩ := hclash.1 htwice
    exact hne (eq_of_spelled_eq hwords hr hr' (clash_spelled hmap hplain hr hr' hboth).2)

/-- A builder of a message whose only field is a duration, which may come from another builder. -/
def waiting : Builder :=
  let duration := { plainMessage "Duration" [] with fullName := "google.protobuf.Duration" }
  let a := plainMessage "A" [singleField "wait" ⟨"A", [0]⟩ duration.address]
  ofMessage (TypeMap.file TypeMap.builtin) { messages := [duration, a] } [] a
    { useValidator := true }

/-- The field of `waiting` has three methods of one name. -/
theorem declared_twice_iff_waiting :
    waiting.Unannotated ∧ waiting.Readable ∧ waiting.SingleWords ∧
      waiting.write.result = .ok () ∧ waiting.profiles.Nodup ∧
      waiting.profiles =
        [⟨"SetWait", [some "const ::google::protobuf::Duration&"]⟩, ⟨"SetWait", [none]⟩,
          ⟨"SetWait", [some "absl::Duration"]⟩] := by
  have hmap : waiting.typeMap = TypeMap.file TypeMap.builtin := by
    dsimp only [waiting, ofMessage]
  have hplain : waiting.Unannotated := by
    unfold Unannotated
    decide +kernel
  have hwords : waiting.SingleWords := by
    unfold SingleWords
    decide +kernel
  have hfields : ∀ m ∈ waiting.message :: waiting.pool.messages, ∀ f ∈ m.fields,
      f.target = .message ⟨"Duration", [0]⟩ ∧ f.default = none := by decide +kernel
  have hreadable : waiting.Readable := by
    refine ⟨by decide +kernel, ?_, ?_⟩
    · intro m hm f hf e he
      rw [(hfields m hm f hf).1] at he
      cases he
    · intro m hm f hf
      rw [Field.defaultExpression, (hfields m hm f hf).2]
      exact ⟨_, rfl⟩
  obtain ⟨hends, -, -, -, hnodup⟩ := declared_twice_iff waiting hmap hplain hreadable
  exact ⟨hplain, hreadable, hwords, hends, hnodup hwords, by decide +kernel⟩

/-- A field that holds a number, for the messages of `joined`. -/
def numberField (name : String) (container : Address) : Field :=
  { name, fullName := name, number := 1, kind := .int32, label := .optional, container
    typeName := "", target := .scalar, default := none, annotations := [] }

/-- A builder of a message with a field `a_b`, and with a field `a` that holds a field `b`. -/
def joined : Builder :=
  let a := plainMessage "A" [numberField "a_b" ⟨"A", [0]⟩, singleField "a" ⟨"A", [0]⟩ ⟨"B", [0]⟩]
  let b := plainMessage "B" [numberField "b" ⟨"B", [0]⟩]
  ofMessage (TypeMap.file TypeMap.builtin) { messages := [a, b] } [] a

/-- The two routes to the numbers of `joined` run together to one name, which is declared twice,
although each message has lower case fields of different names. -/
theorem method_declared_twice :
    (joined.typeMap = TypeMap.file TypeMap.builtin ∧ joined.Unannotated ∧
      ∀ m ∈ joined.pool.messages,
        (m.fields.map (·.name)).Nodup ∧ ∀ f ∈ m.fields, Text.lower f.name = f.name) ∧
      joined.write.result = .ok () ∧
      linesOf .header joined.write =
        ["ABuilder& SetAB(int32_t value);", "ABuilder& SetA(B value);",
          "ABuilder& SetAB(int32_t value);", ""] := by
  refine ⟨⟨?_, ?_, ?_⟩, ?_⟩
  · dsimp only [joined, ofMessage]
  · unfold Unannotated
    decide +kernel
  · decide +kernel
  · decide +kernel

end FluentGen.Builder
