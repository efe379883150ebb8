import FluentGen.Assembly.Files
import FluentGen.Proofs.Dictionary
import FluentGen.Proofs.Schema.Nesting
import FluentGen.Proofs.TypeMap.Expansions

/-!
The name of the message in the class of its builder. The class stands in the namespace of the
package, so the name of the message is written without the package. It loses the package twice: a
message whose own names begin with those of the package, and go on, is written without these too.
-/

namespace FluentGen.Assembly

open Name (IsIdentifier absolute dotPath scopePath)
open Schema (FileDecl Message)

/-- What is left of the names of a message if they begin with those of the package and go on. -/
def withoutPackage (package names : List String) : List String :=
  if package <+: names ∧ package ≠ names then names.drop package.length else names

section Names

variable {package names : List String}

theorem withoutPackage_append {inner : List String} (hinner : inner ≠ []) :
    withoutPackage package (package ++ inner) = inner := by
  have hgoes : package <+: package ++ inner ∧ package ≠ package ++ inner :=
    ⟨List.prefix_append _ _, by simpa using hinner⟩
  rw [withoutPackage, if_pos hgoes, List.drop_left]

theorem exists_inner_iff :
    (∃ inner, inner ≠ [] ∧ names = package ++ inner) ↔ package <+: names ∧ package ≠ names := by
  constructor
  · rintro ⟨inner, hinner, rfl⟩
    exact ⟨List.prefix_append _ _, by simpa using hinner⟩
  · rintro ⟨⟨inner, rfl⟩, hne⟩
    exact ⟨inner, by simpa using hne, rfl⟩

/-- Taking the package away from the beginning of a name takes it away from the names. -/
theorem withoutStart_scopePath (hpackage : package ≠ []) (hne : names ≠ [])
    (hscopes : ∀ n ∈ package, IsIdentifier n) (hnames : ∀ n ∈ names, IsIdentifier n) :
    withoutStart ["::" ++ scopePath package ++ "::", scopePath package ++ "::"]
        (scopePath names) = scopePath (withoutPackage package names) := by
  have hglobal : Text.stripStart? ("::" ++ scopePath package ++ "::") (scopePath names) = none := by
    obtain ⟨c, rest, hchars, hcolon⟩ := Name.exists_cons_scopePath hne hnames
    rw [Option.eq_none_iff_forall_not_mem]
    intro more hmore
    have hstart := congrArg String.toList (Text.stripStart?_eq_some_iff.1 hmore)
    rw [hchars, String.toList_append, String.toList_append, String.toList_append] at hstart
    exact hcolon (List.cons.inj hstart).1
  by_cases hgoes : package <+: names ∧ package ≠ names
  · obtain ⟨inner, hinner, rfl⟩ := exists_inner_iff.2 hgoes
    have hinside : Text.stripStart? (scopePath package ++ "::") (scopePath (package ++ inner)) =
        some (scopePath inner) :=
      Text.stripStart?_eq_some_iff.2 (Name.scopePath_append hpackage hinner)
    simp only [withoutStart, List.findSome?_cons, hglobal, hinside, Option.getD_some,
      withoutPackage_append hinner]
  · have hinside : Text.stripStart? (scopePath package ++ "::") (scopePath names) = none := by
      rw [Option.eq_none_iff_forall_not_mem]
      intro more hmore
      have hstart := Text.stripStart?_eq_some_iff.1 hmore
      obtain ⟨inner, hinner, heq, -⟩ :=
        (Name.scopePath_eq_append_iff hpackage hscopes hnames).1 hstart
      exact hgoes (exists_inner_iff.1 ⟨inner, hinner, heq⟩)
    simp only [withoutStart, List.findSome?_cons, List.findSome?_nil, hglobal, hinside,
      Option.getD_none, withoutPackage, if_neg hgoes]

/-- Behind the namespace of the package the name that is left leads to the message, unless names
have been taken away from it. -/
theorem scopePath_withoutPackage_iff (hpackage : package ≠ []) (hne : names ≠ []) :
    "::" ++ scopePath package ++ "::" ++ scopePath (withoutPackage package names) =
        "::" ++ scopePath (package ++ names) ↔
      ¬ (package <+: names ∧ package ≠ names) := by
  rw [Name.scopePath_append hpackage hne]
  by_cases hgoes : package <+: names ∧ package ≠ names
  · obtain ⟨inner, hinner, rfl⟩ := exists_inner_iff.2 hgoes
    rw [withoutPackage_append hinner, Name.scopePath_append hpackage hinner]
    refine iff_of_false ?_ (not_not_intro hgoes)
    intro heq
    have hlength := congrArg String.length heq
    have hcolons : "::".length = 2 := rfl
    simp only [String.length_append, hcolons] at hlength
    omega
  · rw [withoutPackage, if_neg hgoes]
    simp [hgoes, String.append_assoc]

end Names

section Values

variable {b : Builder}

theorem messageType_eq {names : List String} (hpackage : b.package ≠ []) (hne : names ≠ [])
    (hscopes : ∀ n ∈ b.package, IsIdentifier n) (hnames : ∀ n ∈ names, IsIdentifier n)
    (hname : b.message.fullName = dotPath (b.package ++ names)) :
    messageType b = scopePath (withoutPackage b.package names) := by
  rw [← withoutStart_scopePath hpackage hne hscopes hnames, messageType, hname,
    Name.relativeTo_absolute_dotPath hpackage hne hscopes hnames]
  rfl

theorem not_mem_expansions (map : TypeMap) (name : String)
    (hspecial : TypeMap.hasSigil TypeMap.specialSigil name = false)
    (hcustom : TypeMap.hasSigil TypeMap.customSigil name = false) :
    name ∉ (TypeMap.expansions map).entries.map Prod.fst := by
  intro hname
  obtain ⟨e, he, rfl⟩ := List.mem_map.1 hname
  obtain ⟨entry, hentry, he⟩ := List.mem_flatMap.1 (KeyMap.mem_ofList he)
  obtain ⟨-, hexpanded⟩ := List.mem_filter.1 hentry
  obtain ⟨ending, -, hending⟩ := List.mem_map.1
    ((TypeMap.names_expansionsOf_sublist entry.1 entry.2).subset (List.mem_map_of_mem he))
  have hbegins : ∀ {sigil}, TypeMap.hasSigil sigil entry.1 = true →
      TypeMap.hasSigil sigil e.1 = true := by
    intro sigil hsigil
    rw [TypeMap.hasSigil_iff] at hsigil ⊢
    rw [← hending, String.toList_append, List.head?_append, hsigil]
    rfl
  rcases Bool.or_eq_true_iff.1 hexpanded with h | h
  · rw [hbegins h] at hspecial
    cases hspecial
  · rw [hbegins h] at hcustom
    cases hcustom

/-- The name of the message is among the values of its builder, and the expansions of the type map
leave it alone. -/
theorem get?_addAll_builderValues (b : Builder) (map : KeyMap String) :
    (map.addAll (builderValues b)).get? "PROTO_TYPE" = some (messageType b) := by
  have hnot := not_mem_expansions b.typeMap "PROTO_TYPE" (by decide) (by decide)
  rw [builderValues, KeyMap.addAll_append, KeyMap.get?_addAll_of_notMem hnot]
  apply KeyMap.get?_addAll_of_mem (e := ("PROTO_TYPE", messageType b))
  · simp
  · simp

theorem package_of_packageOf {messages : List Message} {package : List String}
    (h : packageOf messages = .ok package) {m : Message} (hm : m ∈ messages) :
    package = if m.package.isEmpty then [] else Text.split '.' m.package := by
  cases messages with
  | nil => cases hm
  | cons first rest =>
    rw [packageOf] at h
    split at h
    · next hsame =>
      have hpackage : m.package = first.package := by
        rcases List.mem_cons.1 hm with rfl | hm
        · rfl
        · exact eq_of_beq (List.all_eq_true.1 hsame m hm)
      rw [hpackage]
      exact (Except.ok.inj h).symm
    · cases h

/-- A builder of a plan is for one of the messages, and in their package. -/
theorem builder_of_plan {setup : Setup} {package : List String} {builders : List Builder}
    (h : plan setup = .ok (package, builders)) (hb : b ∈ builders) :
    b.message ∈ setup.messages ∧ b.package = package ∧
      package = if b.message.package.isEmpty then [] else Text.split '.' b.message.package := by
  obtain ⟨package', hpackage, h⟩ := exists_of_bind_eq_ok h
  obtain ⟨builders', hbuilders, h⟩ := exists_of_bind_eq_ok h
  cases h
  obtain ⟨m, hm, hmade⟩ := exists_left_of_forall₂ (mapM_eq_ok_iff.1 hbuilders) hb
  obtain ⟨_, -, hmade⟩ := exists_of_bind_eq_ok hmade
  cases hmade
  exact ⟨hm, rfl, package_of_packageOf hpackage hm⟩

/-- In a package, the message of a builder is nested in it. -/
theorem nestedIn_of_plan {files : List FileDecl} {setup : Setup} {package : List String}
    {builders : List Builder} (hload : (Schema.Pool.load files).2 = .ok setup.pool)
    (hloaded : ∀ m ∈ setup.messages, m ∈ setup.pool.messages)
    (hplan : plan setup = .ok (package, builders)) (hb : b ∈ builders) (hpackage : package ≠ [])
    (hnames : ∀ n ∈ b.message.nesting, IsIdentifier n) :
    ∃ file ∈ files, file.package = dotPath package ∧ dotPath package ≠ "" ∧
      b.message.NestedIn (dotPath package) := by
  obtain ⟨hmessage, -, hsplit⟩ := builder_of_plan hplan hb
  obtain ⟨file, hfile, hnested⟩ := Schema.Pool.nestedIn_load hload b.message (hloaded _ hmessage)
  rw [hnested.package_eq fun n hn => (hnames n hn).noDot] at hsplit
  by_cases hempty : file.package.isEmpty = true
  · rw [if_pos hempty] at hsplit
    exact absurd hsplit hpackage
  · rw [if_neg hempty] at hsplit
    have hpath : file.package = dotPath package := by
      rw [hsplit]
      exact (Text.intercalate_split '.' file.package).symm
    have hopen : file.package ≠ "" := fun h => hempty (String.isEmpty_iff.2 h)
    exact ⟨file, hfile, hpath, hpath ▸ hopen, hpath ▸ hnested⟩

end Values

/-- The value that names the message, for a message of a loaded schema in a package: the names of its
nesting, without those of the package if they begin with all of these and go on. So behind the
namespace of the package it is the fully qualified name exactly if they do not. -/
theorem messageType_of_plan {files : List FileDecl} {setup : Setup} {package : List String}
    {builders : List Builder} {b : Builder} (hload : (Schema.Pool.load files).2 = .ok setup.pool)
    (hloaded : ∀ m ∈ setup.messages, m ∈ setup.pool.messages)
    (hplan : plan setup = .ok (package, builders)) (hb : b ∈ builders) (hpackage : package ≠ [])
    (hscopes : ∀ n ∈ package, IsIdentifier n)
    (hnames : ∀ n ∈ b.message.nesting, IsIdentifier n) :
    let names := b.message.nesting
    let value := scopePath (withoutPackage package names)
    (∃ file ∈ files, file.package = dotPath package) ∧
      b.message.fullName = dotPath (package ++ names) ∧
      absolute b.message.fullName = "::" ++ scopePath (package ++ names) ∧
      (∀ (d : Dictionary) (scope : Nat), scope < d.scopes.length →
        (d.setValues scope (builderValues b)).value scope "PROTO_TYPE" = value) ∧
      ("::" ++ scopePath package ++ "::" ++ value = absolute b.message.fullName ↔
        ¬ (package <+: names ∧ package ≠ names)) := by
  intro names value
  have hne : names ≠ [] := b.message.nesting_ne_nil
  obtain ⟨-, rfl, -⟩ := builder_of_plan hplan hb
  obtain ⟨file, hfile, hpath, hopen, hnested⟩ :=
    nestedIn_of_plan hload hloaded hplan hb hpackage hnames
  have hfull : b.message.fullName = dotPath (b.package ++ names) :=
    hnested.fullName_eq hopen hpackage
  have habsolute : absolute b.message.fullName = "::" ++ scopePath (b.package ++ names) := by
    rw [hfull, Name.absolute_dotPath_append hpackage hne hscopes hnames]
  refine ⟨⟨file, hfile, hpath⟩, hfull, habsolute, ?_, ?_⟩
  · intro d scope hscope
    rw [Dictionary.value_setValues hscope (get?_addAll_builderValues b)]
    exact messageType_eq hpackage hne hscopes hnames hfull
  · rw [habsolute]
    exact scopePath_withoutPackage_iff hpackage hne

/-- A package `a` whose message `a` contains a message `X`. What is left of the name of the inner one
does not lead to it. -/
theorem messageType_of_plan_repeated :
    let files : List FileDecl :=
      [{ name := "a.proto", package := "a"
         messages := [{ name := "a", nested := [{ name := "X" }] }] }]
    ∃ (setup : Setup) (b : Builder),
      (Schema.Pool.load files).2 = .ok setup.pool ∧ plan setup = .ok (["a"], [b]) ∧
        b.message.nesting = ["a", "X"] ∧ absolute b.message.fullName = "::a::a::X" ∧
        ((Dictionary.root "BUILDER").setValues 0 (builderValues b)).value 0 "PROTO_TYPE" = "X" ∧
        "::" ++ scopePath ["a"] ++ "::" ++ "X" ≠ absolute b.message.fullName := by
  intro files
  let outer : Message :=
    { address := ⟨"a.proto", [0]⟩, name := "a", fullName := "a.a", container := none
      enclosing := [], outermost := "a.a", fields := [], enums := [], isMapEntry := false
      options := none }
  let inner : Message :=
    { address := ⟨"a.proto", [0, 0]⟩, name := "X", fullName := "a.a.X"
      container := some ⟨"a.proto", [0]⟩, enclosing := ["a"], outermost := "a.a", fields := []
      enums := [], isMapEntry := false, options := none }
  let setup : Setup :=
    { typeMap := {}
      pool :=
        { files := [{ name := "a.proto", package := "a", dependencies := [], enums := [] }]
          messages := [outer, inner] }
      messages := [inner], header := "a.h" }
  let b : Builder := Builder.ofMessage {} setup.pool ["a"] inner
  have hload : (Schema.Pool.load files).2 = .ok setup.pool := by decide +kernel
  have hpackage : packageOf setup.messages = .ok ["a"] := by decide +kernel
  have hplan : plan setup = .ok (["a"], [b]) := by
    rw [plan, hpackage]
    rfl
  obtain ⟨-, -, -, hvalue, hiff⟩ := messageType_of_plan hload (by decide +kernel) hplan
    List.mem_cons_self (List.cons_ne_nil _ _) (by decide +kernel) (by decide +kernel)
  have hgoes : ["a"] <+: b.message.nesting ∧ ["a"] ≠ b.message.nesting := by decide +kernel
  have hshown : scopePath (withoutPackage ["a"] b.message.nesting) = "X" := by decide +kernel
  rw [hshown] at hvalue hiff
  exact ⟨setup, b, hload, hplan, rfl, by decide +kernel, hvalue _ 0 Nat.one_pos,
    fun heq => hiff.1 heq hgoes⟩

end FluentGen.Assembly
