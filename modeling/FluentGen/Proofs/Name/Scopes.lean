import FluentGen.Proofs.Name.TypeName
import FluentGen.Proofs.Text.Lines

/-!
Names that are joined from the names of scopes. An identifier holds neither dots nor colons, so a
joined name can be taken apart in one way only: what begins with the scopes of a package and goes on
is a name that repeats them.
-/

namespace FluentGen.Name

/-- A name of a scope: letters, digits and underscores, at least one of them. -/
structure IsIdentifier (name : String) : Prop where
  nonempty : name ≠ ""
  chars : name.toList.all Text.isWordChar = true

instance (name : String) : Decidable (IsIdentifier name) :=
  decidable_of_iff (name ≠ "" ∧ name.toList.all Text.isWordChar = true)
    ⟨fun h => ⟨h.1, h.2⟩, fun h => ⟨h.nonempty, h.chars⟩⟩

/-- The name of a schema that leads through scopes. -/
def dotPath (names : List String) : String :=
  ".".intercalate names

/-- The name of C++ that leads through scopes. -/
def scopePath (names : List String) : String :=
  "::".intercalate names

section Identifiers

variable {name : String}

theorem IsIdentifier.noDot (h : IsIdentifier name) : '.' ∉ name.toList := by
  intro hdot
  exact absurd (List.all_eq_true.1 h.chars '.' hdot) (by decide)

theorem IsIdentifier.noColon (h : IsIdentifier name) : ':' ∉ name.toList := by
  intro hcolon
  exact absurd (List.all_eq_true.1 h.chars ':' hcolon) (by decide)

theorem IsIdentifier.exists_cons (h : IsIdentifier name) :
    ∃ c rest, name.toList = c :: rest ∧ c ≠ ':' := by
  cases hchars : name.toList with
  | nil => exact absurd (String.toList_eq_nil_iff.1 hchars) h.nonempty
  | cons c rest =>
    refine ⟨c, rest, rfl, ?_⟩
    rintro rfl
    exact h.noColon (hchars ▸ List.mem_cons_self)

end Identifiers

section Joined

variable {names others : List String}

theorem toList_dotPath_cons_cons (first second : String) (rest : List String) :
    (dotPath (first :: second :: rest)).toList =
      first.toList ++ '.' :: (dotPath (second :: rest)).toList := by
  rw [dotPath, String.intercalate_cons_cons]
  simp [dotPath]

theorem toList_scopePath_cons_cons (first second : String) (rest : List String) :
    (scopePath (first :: second :: rest)).toList =
      first.toList ++ ':' :: ':' :: (scopePath (second :: rest)).toList := by
  rw [scopePath, String.intercalate_cons_cons]
  simp [scopePath]

theorem dotPath_singleton (name : String) : dotPath [name] = name :=
  String.intercalate_singleton

theorem scopePath_singleton (name : String) : scopePath [name] = name :=
  String.intercalate_singleton

theorem dotPath_append (hnames : names ≠ []) (hothers : others ≠ []) :
    dotPath (names ++ others) = dotPath names ++ "." ++ dotPath others :=
  String.intercalate_append_of_ne_nil hnames hothers

theorem scopePath_append (hnames : names ≠ []) (hothers : others ≠ []) :
    scopePath (names ++ others) = scopePath names ++ "::" ++ scopePath others :=
  String.intercalate_append_of_ne_nil hnames hothers

/-- A joined name begins with its first scope. -/
theorem toList_scopePath_cons (first : String) (rest : List String) :
    ∃ more, (scopePath (first :: rest)).toList = first.toList ++ more := by
  cases rest with
  | nil => exact ⟨[], by rw [scopePath_singleton, List.append_nil]⟩
  | cons second rest => exact ⟨_, toList_scopePath_cons_cons first second rest⟩

theorem exists_cons_scopePath (hnames : names ≠ []) (h : ∀ n ∈ names, IsIdentifier n) :
    ∃ c rest, (scopePath names).toList = c :: rest ∧ c ≠ ':' := by
  cases names with
  | nil => exact absurd rfl hnames
  | cons first rest =>
    obtain ⟨c, chars, hfirst, hcolon⟩ := (h first List.mem_cons_self).exists_cons
    obtain ⟨more, hmore⟩ := toList_scopePath_cons first rest
    exact ⟨c, chars ++ more, by rw [hmore, hfirst, List.cons_append], hcolon⟩

theorem scopePath_ne_empty (hnames : names ≠ []) (h : ∀ n ∈ names, IsIdentifier n) :
    scopePath names ≠ "" := by
  obtain ⟨c, rest, hchars, -⟩ := exists_cons_scopePath hnames h
  intro hempty
  rw [hempty] at hchars
  cases hchars

end Joined

section Absolute

variable {names : List String}

theorem dotsToScopes_append (first second : List Char) :
    dotsToScopes (first ++ second) = dotsToScopes first ++ dotsToScopes second := by
  fun_induction dotsToScopes first with
  | case1 => rfl
  | case2 rest ih => simp [dotsToScopes, ih]
  | case3 c rest hc ih =>
    rw [List.cons_append, dotsToScopes, ih, List.cons_append]
    exact hc

theorem dotsToScopes_dotPath (h : ∀ n ∈ names, IsIdentifier n) :
    dotsToScopes (dotPath names).toList = (scopePath names).toList := by
  induction names with
  | nil => rfl
  | cons first rest ih =>
    have hfirst := dotsToScopes_of_not_mem (h first List.mem_cons_self).noDot
    cases rest with
    | nil => rw [dotPath_singleton, scopePath_singleton, hfirst]
    | cons second rest =>
      have hrest := ih fun n hn => h n (List.mem_cons_of_mem _ hn)
      rw [toList_dotPath_cons_cons, toList_scopePath_cons_cons, dotsToScopes_append, hfirst,
        dotsToScopes, hrest]

theorem not_mem_dotPath (h : ∀ n ∈ names, IsIdentifier n) : ':' ∉ (dotPath names).toList := by
  induction names with
  | nil => simp [dotPath]
  | cons first rest ih =>
    have hfirst := (h first List.mem_cons_self).noColon
    cases rest with
    | nil => rwa [dotPath_singleton]
    | cons second rest =>
      have hrest := ih fun n hn => h n (List.mem_cons_of_mem _ hn)
      rw [toList_dotPath_cons_cons]
      simp [hfirst, hrest]

theorem globalScope_scopePath {first : String} (hfirst : IsIdentifier first) (second : String)
    (rest : List String) :
    globalScope (scopePath (first :: second :: rest)).toList =
      "::".toList ++ (scopePath (first :: second :: rest)).toList := by
  obtain ⟨c, chars, hchars, hcolon⟩ := hfirst.exists_cons
  rw [toList_scopePath_cons_cons, hchars]
  have hscope : ':' ∈ (c :: chars ++ ':' :: ':' :: (scopePath (second :: rest)).toList).drop 2 := by
    cases chars <;> simp
  exact if_pos ⟨hcolon, hscope⟩

/-- A name with scopes is fully qualified by the global scope in front of them, unless it begins in
the standard library. -/
theorem absolute_of_scopes {name : String} {c : Char} (hstd : Text.startsWith "std::" name = false)
    (hc : Text.isWordChar c = false) (hscope : c ∈ name.toList)
    (hlength : 2 ≤ names.length) (h : ∀ n ∈ names, IsIdentifier n)
    (hchars : dotsToScopes name.toList = (scopePath names).toList ∨
      dotsToScopes name.toList = "::".toList ++ (scopePath names).toList) :
    absolute name = "::" ++ scopePath names := by
  rw [absolute_eq_scoped hstd (lookup_integerTypes_of_mem hc hscope)]
  apply String.toList_injective
  rw [String.toList_ofList, String.toList_append]
  rcases hchars with hchars | hchars
  · match names, hlength with
    | first :: second :: rest, _ =>
      rw [hchars]
      exact globalScope_scopePath (h first List.mem_cons_self) second rest
  · rw [hchars]
    rfl

theorem dot_mem_dotPath (hlength : 2 ≤ names.length) : '.' ∈ (dotPath names).toList := by
  match names, hlength with
  | first :: second :: rest, _ =>
    rw [toList_dotPath_cons_cons]
    simp

theorem colon_mem_scopePath (hlength : 2 ≤ names.length) : ':' ∈ (scopePath names).toList := by
  match names, hlength with
  | first :: second :: rest, _ =>
    rw [toList_scopePath_cons_cons]
    simp

theorem absolute_dotPath (hlength : 2 ≤ names.length) (h : ∀ n ∈ names, IsIdentifier n) :
    absolute (dotPath names) = "::" ++ scopePath names := by
  have hstd : Text.startsWith "std::" (dotPath names) = false := by
    rw [Text.startsWith, ← Bool.not_eq_true, List.isPrefixOf_iff_prefix]
    intro hstart
    exact not_mem_dotPath h (hstart.subset (by decide))
  exact absolute_of_scopes hstd (by decide) (dot_mem_dotPath hlength) hlength h
    (Or.inl (dotsToScopes_dotPath h))

end Absolute

section Stripped

variable {package names : List String}

/-- A path that begins with an identifier and a scope operator has this identifier as its first
scope. -/
theorem exists_of_scopePath_eq {first : String} {more : List Char} (hfirst : IsIdentifier first)
    (hnames : ∀ n ∈ names, IsIdentifier n)
    (h : (scopePath names).toList = first.toList ++ ':' :: ':' :: more) :
    ∃ rest, rest ≠ [] ∧ names = first :: rest ∧ (scopePath rest).toList = more := by
  match names with
  | [] =>
    have hempty : (scopePath []).toList = [] := rfl
    rw [hempty] at h
    simp at h
  | [name] =>
    rw [scopePath_singleton] at h
    have hcolon := (hnames name List.mem_cons_self).noColon
    rw [h] at hcolon
    simp at hcolon
  | name :: second :: rest =>
    have hname := (hnames name List.mem_cons_self).noColon
    rw [toList_scopePath_cons_cons] at h
    obtain ⟨hsame, hrest⟩ := Text.append_separator_inj hname hfirst.noColon h
    exact ⟨second :: rest, List.cons_ne_nil _ _, by rw [String.toList_injective hsame],
      (List.cons.inj hrest).2⟩

/-- A path that begins with all scopes of another one and goes on. -/
theorem scopePath_eq_append_iff {rest : String} (hpackage : package ≠ [])
    (hscopes : ∀ n ∈ package, IsIdentifier n) (hnames : ∀ n ∈ names, IsIdentifier n) :
    scopePath names = scopePath package ++ "::" ++ rest ↔
      ∃ inner, inner ≠ [] ∧ names = package ++ inner ∧ scopePath inner = rest := by
  constructor
  · intro h
    induction package generalizing names with
    | nil => exact absurd rfl hpackage
    | cons first package ih =>
      have hfirst := hscopes first List.mem_cons_self
      have hchars := congrArg String.toList h
      rw [String.toList_append, String.toList_append] at hchars
      cases package with
      | nil =>
        rw [scopePath_singleton, List.append_assoc] at hchars
        obtain ⟨inner, hinner, rfl, hrest⟩ := exists_of_scopePath_eq hfirst hnames hchars
        exact ⟨inner, hinner, rfl, String.toList_injective hrest⟩
      | cons second package =>
        rw [toList_scopePath_cons_cons, List.append_assoc, List.append_assoc, List.cons_append,
          List.cons_append] at hchars
        obtain ⟨others, -, rfl, hmore⟩ := exists_of_scopePath_eq hfirst hnames hchars
        have hothers : scopePath others = scopePath (second :: package) ++ "::" ++ rest := by
          apply String.toList_injective
          rw [hmore, String.toList_append, String.toList_append, List.append_assoc]
        obtain ⟨inner, hinner, rfl, hrest⟩ := ih (List.cons_ne_nil _ _)
          (fun n hn => hscopes n (List.mem_cons_of_mem _ hn))
          (fun n hn => hnames n (List.mem_cons_of_mem _ hn)) hothers
        exact ⟨inner, hinner, rfl, hrest⟩
  · rintro ⟨inner, hinner, rfl, rfl⟩
    exact scopePath_append hpackage hinner

/-- The fully qualified name of a declaration in a package. -/
theorem absolute_dotPath_append (hpackage : package ≠ []) (hne : names ≠ [])
    (hscopes : ∀ n ∈ package, IsIdentifier n) (hnames : ∀ n ∈ names, IsIdentifier n) :
    absolute (dotPath (package ++ names)) = "::" ++ scopePath (package ++ names) := by
  apply absolute_dotPath
  · have hfirst := List.length_pos_iff.2 hpackage
    have hlast := List.length_pos_iff.2 hne
    rw [List.length_append]
    omega
  · intro n hn
    exact (List.mem_append.1 hn).elim (hscopes n) (hnames n)

/-- Inside of its package, a name goes by what follows the package in it. -/
theorem relativeTo_absolute_dotPath (hpackage : package ≠ []) (hne : names ≠ [])
    (hscopes : ∀ n ∈ package, IsIdentifier n) (hnames : ∀ n ∈ names, IsIdentifier n) :
    relativeTo package (absolute (dotPath (package ++ names))) = scopePath names := by
  have hopen : package.isEmpty = false := by simpa using hpackage
  have hspace : namespaceOf package = "::" ++ scopePath package := by
    rw [namespaceOf, hopen]
    rfl
  have hstripped : Text.stripStart? (namespaceOf package ++ "::")
      (absolute (dotPath (package ++ names))) = some (scopePath names) := by
    rw [Text.stripStart?_eq_some_iff, absolute_dotPath_append hpackage hne hscopes hnames,
      scopePath_append hpackage hne, hspace]
    simp only [String.append_assoc]
  have hsome : (scopePath names).isEmpty = false :=
    String.isEmpty_eq_false_iff.2 (scopePath_ne_empty hne hnames)
  rw [relativeTo, hopen, hstripped]
  simp only [Bool.false_eq_true, if_false, hsome]

end Stripped

section Spellings

variable {names : List String}

/-- The ways to spell the type that scopes lead to: with dots or with scope operators, from the
package that is open or from the outermost one. -/
def spellings (names : List String) : List String :=
  [dotPath names, "." ++ dotPath names, scopePath names, "::" ++ scopePath names]

theorem not_mem_scopePath (h : ∀ n ∈ names, IsIdentifier n) : '.' ∉ (scopePath names).toList := by
  rw [← dotsToScopes_dotPath h]
  exact not_mem_dotsToScopes _

/-- A path begins in the standard library only if its first scope is that one. -/
theorem startsWith_std_scopePath (h : ∀ n ∈ names, IsIdentifier n)
    (hstd : names.head? ≠ some "std") :
    Text.startsWith "std::" (scopePath names) = false := by
  rw [Text.startsWith, ← Bool.not_eq_true, List.isPrefixOf_iff_prefix]
  rintro ⟨more, hmore⟩
  obtain ⟨rest, -, rfl, -⟩ := exists_of_scopePath_eq (by decide : IsIdentifier "std") h hmore.symm
  exact hstd rfl

/-- A name that begins with a dot or a colon has the global scope in front already. -/
theorem absolute_of_leading {name : String} {c : Char} (hhead : name.toList.head? = some c)
    (hc : Text.isWordChar c = false) (hlength : 2 ≤ names.length) (h : ∀ n ∈ names, IsIdentifier n)
    (hchars : dotsToScopes name.toList = "::".toList ++ (scopePath names).toList) :
    absolute name = "::" ++ scopePath names := by
  have hstd : Text.startsWith "std::" name = false := by
    rw [Text.startsWith, ← Bool.not_eq_true, List.isPrefixOf_iff_prefix]
    rintro ⟨more, hmore⟩
    rw [← hmore] at hhead
    rw [← Option.some.inj hhead] at hc
    exact absurd hc (by decide)
  exact absolute_of_scopes hstd hc (List.mem_of_head? hhead) hlength h (Or.inr hchars)

/-- All spellings of a type have one fully qualified name. -/
theorem absolute_of_mem_spellings (hlength : 2 ≤ names.length) (h : ∀ n ∈ names, IsIdentifier n)
    (hstd : names.head? ≠ some "std") {spelling : String} (hspelling : spelling ∈ spellings names) :
    absolute spelling = "::" ++ scopePath names := by
  have hscopes := dotsToScopes_of_not_mem (not_mem_scopePath h)
  simp only [spellings, List.mem_cons, List.not_mem_nil, or_false] at hspelling
  rcases hspelling with rfl | rfl | rfl | rfl
  · exact absolute_dotPath hlength h
  · refine absolute_of_leading (c := '.') ?_ (by decide) hlength h ?_
    · rw [String.toList_append]
      rfl
    · rw [String.toList_append, dotsToScopes_append, dotsToScopes_dotPath h]
      rfl
  · exact absolute_of_scopes (startsWith_std_scopePath h hstd) (by decide)
      (colon_mem_scopePath hlength) hlength h (Or.inl hscopes)
  · refine absolute_of_leading (c := ':') ?_ (by decide) hlength h ?_
    · rw [String.toList_append]
      rfl
    · rw [String.toList_append, dotsToScopes_append, hscopes]
      rfl

end Spellings

end FluentGen.Name
