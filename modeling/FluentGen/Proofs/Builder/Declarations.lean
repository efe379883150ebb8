import FluentGen.Proofs.Builder.Methods
import FluentGen.Proofs.Emit.Collected
import FluentGen.Proofs.Setter.Declaration

/-!
The three channels of a builder against each other. A method that is both declared and defined has
one declaration in the header and one definition in the source, in the order of the methods, with
the same name and parameters. In a builder with an interface every method that is written is
declared there, but not every mode marks its method in the header as one that overrides.
-/

namespace FluentGen.Builder

open Emit (linesOf)
open Schema (Field Message)

theorem className_of_mem_methods {b : Builder} {s : Setter} (h : s ∈ b.methods) :
    s.context.className = b.className := by
  obtain ⟨v, -, hs⟩ := List.mem_flatMap.1 h
  obtain ⟨first, hcontext⟩ := context_of_mem_methodsOf hs
  rw [hcontext]
  rfl

/-- A run that does not fail writes its methods one after the other, in the same order in every
channel. Each of them whose mode is `both` has exactly its declaration in the header, with the
overload for other builders behind it, and exactly its definition in the source. The two have the
name and the parameters in common; only the declaration may have a default, behind the source
location parameter at the end. -/
theorem declarations_match_definitions (b : Builder) (h : b.write.result = .ok ()) :
    (∀ channel, linesOf channel b.write =
      (b.methods.flatMap fun s => linesOf channel s.write) ++ [""]) ∧
    (∀ buffer channel, (collect buffer b.write.out).lines.get channel =
      buffer.lines.get channel ++ laidOut channel (linesOf channel b.write)) ∧
    ∀ s ∈ b.methods, s.options.mode = .both →
      linesOf .header s.write =
        (b.className ++ "& " ++ s.methodName ++ "(" ++
          (s.methodParam .source ++ s.defaultArgument) ++ ")" ++
          (if b.setup.makeInterface || s.asksOverride then " override" else "") ++ ";") ::
          s.overload ∧
      linesOf .source s.write =
        "" :: (b.className ++ "& " ++ b.className ++ "::" ++ s.methodName ++ "(" ++
          s.methodParam .source ++ ") \x7b") :: s.definition .source ∧
      (s.defaultArgument ≠ "" →
        ∃ location front, s.addsSourceLocation = true ∧ s.sourceLocation? = some location ∧
          s.defaultArgument = " = " ++ textOf location.value ∧
          s.methodParam .source =
            front ++ (textOf location.type ++ " " ++ s.sourceLocationParam)) := by
  refine ⟨fun channel => linesOf_methods channel h, fun buffer channel => ?_, ?_⟩
  · exact lines_collect buffer b.write.out channel
  intro s hs hmode
  have hwritten := written_of_mem_methods h hs
  have hclass := className_of_mem_methods hs
  have hinterface := makeInterface_of_mem_methods hs
  have hplain : s.traits.template = false := by rw [Setter.traits, hmode]; rfl
  have hheader : s.traits.header = true := by rw [Setter.traits, hmode]; rfl
  have hsource : s.traits.source = true := by rw [Setter.traits, hmode]; rfl
  refine ⟨?_, ?_, ?_⟩
  · rw [Setter.linesOf_write_of_declared hplain hheader hwritten, Setter.declaration,
      Setter.declarationMark_header, Setter.declared, Setter.methodParam_header, hclass,
      hinterface]
    simp
  · rw [Setter.linesOf_write_of_definition hplain hsource hwritten, Setter.signature_source,
      hclass]
  · intro hdefault
    obtain ⟨hadds, location, front, hlocation, hvalue, hparam⟩ :=
      Setter.defaultArgument_of_ne hdefault
    exact ⟨location, front, hadds, hlocation, hvalue, hparam⟩

/-- The builder of a message whose number is set together with its source location, and whose text
is set by two methods, one of them with a fixed value. -/
def located : Builder :=
  let field (name : String) (kind : Schema.FieldKind) (annotations : List FieldOptions) : Field :=
    { name, fullName := "A." ++ name, number := 1, kind, label := .optional
      container := ⟨"a.proto", [0]⟩, typeName := "", target := .scalar, default := none
      annotations }
  let a : Message :=
    { address := ⟨"a.proto", [0]⟩, name := "A", fullName := "A", container := none
      enclosing := [], outermost := "A"
      fields :=
        [field "n" .int32 [{ addSourceLocation := some true }],
          field "text" .string [{}, { name := some "Unknown", value := some "\"?\"" }]]
      enums := [], isMapEntry := false, options := none }
  let location : FieldOptions :=
    { type := some "Location", param := some "loc", value := some "Location::current()" }
  ofMessage (KeyMap.ofList [(sourceLocationKey, location)]) { messages := [a] } [] a

/-- Every method of `located` is declared and defined, one of them with a default in the header. -/
theorem declarations_match_definitions_located :
    (located.methods.map fun s => linesOf .header s.write) =
      [["ABuilder& SetN(int32_t value, Location loc = Location::current());"],
        ["ABuilder& SetText(const std::string& value);"], ["ABuilder& SetUnknown();"]] ∧
    ∀ s ∈ located.methods, linesOf .source s.write =
      "" :: ("ABuilder& ABuilder::" ++ s.methodName ++ "(" ++ s.methodParam .source ++ ") \x7b") ::
        s.definition .source := by
  have hok : located.write.result = .ok () := by decide +kernel
  have hmodes : ∀ s ∈ located.methods, s.options.mode = .both := by
    have hall : (located.methods.all fun s => s.options.mode = .both) = true := by decide +kernel
    simpa using hall
  refine ⟨by decide +kernel, ?_⟩
  intro s hs
  exact ((declarations_match_definitions located hok).2.2 s hs (hmodes s hs)).2.1

/-- With an interface, a run that does not fail declares every abstract method there. A method that
is declared in the header overrides it, with the same name and parameters; one that is a template
is defined there without being marked, and one of the source only is missing in the header. No
other method is abstract. -/
theorem header_of_interface (b : Builder) (hinterface : b.setup.makeInterface = true)
    (h : b.write.result = .ok ()) :
    (∀ channel, linesOf channel b.write =
      (b.methods.flatMap fun s => linesOf channel s.write) ++ [""]) ∧
    ∀ s ∈ b.methods,
      (s.IsAbstract →
        linesOf .interface s.write =
          linesOf .interface (s.writeTemplateLine .interface) ++
            ["virtual " ++ s.declared ++ " =0;"] ∧
        linesOf .header s.write =
          if s.traits.template then
            "" :: linesOf .header (s.writeTemplateLine .header) ++ [s.declared ++ " \x7b"] ++
              s.definition .header
          else if s.traits.header then [s.declared ++ " override;"]
          else []) ∧
      (¬ s.IsAbstract →
        linesOf .interface s.write = [] ∨
        (∃ error, s.conflict? = some error ∧ linesOf .interface s.write = s.errorBlock error) ∨
        linesOf .interface s.write =
          linesOf .interface (s.writeTemplateLine .interface) ++
            ["virtual " ++ s.declared ++ " override;"]) := by
  refine ⟨fun channel => linesOf_methods channel h, ?_⟩
  intro s hs
  have hwritten := written_of_mem_methods h hs
  have hmade : s.context.makeInterface = true :=
    (makeInterface_of_mem_methods hs).trans hinterface
  constructor
  · intro habstract
    exact ⟨Setter.interface_of_abstract habstract hmade hwritten,
      Setter.header_of_abstract habstract hmade hwritten⟩
  · intro hnot
    exact Setter.interface_of_not_abstract hnot hmade hwritten

/-- The builder with an interface of a message with a field for each place where methods go. -/
def placed : Builder :=
  let field (name : String) (mode : OutputMode) : Field :=
    { name, fullName := "A." ++ name, number := 1, kind := .int32, label := .optional
      container := ⟨"a.proto", [0]⟩, typeName := "", target := .scalar, default := none
      annotations := [{ output := some mode }] }
  let a : Message :=
    { address := ⟨"a.proto", [0]⟩, name := "A", fullName := "A", container := none
      enclosing := [], outermost := "A"
      fields := [field "x" .both, field "y" .source, field "z" .template]
      enums := [], isMapEntry := false, options := none }
  ofMessage {} { messages := [a] } [] a { makeInterface := true }

/-- All three methods of `placed` are abstract in the interface, and only the first one has a
declaration in the header that overrides it. -/
theorem header_of_interface_placed :
    (∀ s ∈ placed.methods, linesOf .interface s.write =
      linesOf .interface (s.writeTemplateLine .interface) ++
        ["virtual " ++ s.declared ++ " =0;"]) ∧
    (placed.methods.map fun s => linesOf .header s.write) =
      [["ABuilder& SetX(int32_t value) override;"], [],
        ["", "template <class Value>", "ABuilder& SetZ(const Value& value) \x7b",
          "  data_.set_z(value);", "  return *this;", "\x7d", ""]] := by
  have hok : placed.write.result = .ok () := by decide +kernel
  have habstract : ∀ s ∈ placed.methods, s.IsAbstract := by
    have hall : (placed.methods.all fun s =>
        s.options.mode ≠ .skip && s.conflict?.isNone && !s.asksOverride) = true := by
      decide +kernel
    intro s hs
    have hthis := List.all_eq_true.1 hall s hs
    simp only [Bool.and_eq_true, decide_eq_true_eq, Option.isNone_iff_eq_none,
      Bool.not_eq_true'] at hthis
    exact ⟨hthis.1.1, hthis.1.2, hthis.2⟩
  refine ⟨?_, by decide +kernel⟩
  intro s hs
  exact (((header_of_interface placed rfl hok).2 s hs).1 (habstract s hs)).1

end FluentGen.Builder
