import FluentGen.Name.TypeName
import FluentGen.Proofs.Text.Stripped

/-!
A fully qualified name is its own fully qualified name. It has no dots left, and it either begins
with a colon already or has no scope that asks for one. A name without colons has not been changed,
so the integer types cannot come up again. Inside of a namespace the end of a name is left.
-/

namespace FluentGen.Name

theorem not_mem_dotsToScopes (name : List Char) : '.' ∉ dotsToScopes name := by
  fun_induction dotsToScopes name with
  | case1 => simp
  | case2 rest ih => simp [ih]
  | case3 c rest hc ih =>
    intro hmem
    rcases List.mem_cons.1 hmem with heq | hmem
    · exact hc heq.symm
    · exact ih hmem

theorem dotsToScopes_of_not_mem {name : List Char} (h : '.' ∉ name) : dotsToScopes name = name := by
  induction name with
  | nil => rfl
  | cons c rest ih =>
    have hc : c ≠ '.' := by
      rintro rfl
      exact h List.mem_cons_self
    rw [dotsToScopes, ih fun hmem => h (List.mem_cons_of_mem c hmem)]
    exact hc

/-- Every dot leaves colons behind. -/
theorem dotsToScopes_of_no_colon {name : List Char} (h : ':' ∉ dotsToScopes name) :
    dotsToScopes name = name := by
  fun_induction dotsToScopes name with
  | case1 => rfl
  | case2 rest ih => simp at h
  | case3 c rest hc ih => rw [ih fun hmem => h (List.mem_cons_of_mem c hmem)]

theorem globalScope_cases (name : List Char) :
    globalScope name = name ∨ globalScope name = ':' :: ':' :: name := by
  unfold globalScope
  split
  · exact Or.inl rfl
  · split
    · exact Or.inr rfl
    · exact Or.inl rfl

theorem not_mem_globalScope (name : List Char) : '.' ∉ globalScope (dotsToScopes name) := by
  have hnot := not_mem_dotsToScopes name
  rcases globalScope_cases (dotsToScopes name) with h | h
  · rw [h]
    exact hnot
  · rw [h]
    simpa using hnot

/-- A name without colons is the one that it has been made of. -/
theorem globalScope_of_no_colon {name : List Char} (h : ':' ∉ globalScope (dotsToScopes name)) :
    globalScope (dotsToScopes name) = name := by
  rcases globalScope_cases (dotsToScopes name) with hname | hname
  · rw [hname] at h ⊢
    exact dotsToScopes_of_no_colon h
  · rw [hname] at h
    exact absurd List.mem_cons_self h

theorem globalScope_globalScope (name : List Char) :
    globalScope (globalScope name) = globalScope name := by
  rcases globalScope_cases name with h | h
  · rw [h, h]
  · rw [h]
    simp [globalScope]

/-- The names of integer types are words, so a name with a dot or a colon is none of them. -/
theorem lookup_integerTypes_of_mem {name : String} {c : Char} (hc : Text.isWordChar c = false)
    (h : c ∈ name.toList) : integerTypes.lookup name = none := by
  have hkeys : ∀ e ∈ integerTypes, e.1.toList.all Text.isWordChar = true := by decide
  rw [List.lookup_eq_none_iff]
  intro e he
  rw [bne_iff_ne]
  rintro rfl
  have hword := List.all_eq_true.1 (hkeys e he) c h
  rw [hc] at hword
  cases hword

theorem absolute_integer {name integer : String}
    (h : integerTypes.lookup name = some integer) : absolute integer = integer := by
  have hall : ∀ e ∈ integerTypes, absolute e.2 = e.2 := by decide
  obtain ⟨before, after, hlist, -⟩ := List.lookup_eq_some_iff.1 h
  exact hall (name, integer) (by simp [hlist])

/-- What is neither a name of the standard library nor an integer type is fully qualified by its
scopes. -/
theorem absolute_eq_scoped {name : String} (hstd : Text.startsWith "std::" name = false)
    (hinteger : integerTypes.lookup name = none) :
    absolute name = String.ofList (globalScope (dotsToScopes name.toList)) := by
  rw [absolute, hstd, hinteger]
  rfl

/-- Making a name fully qualified twice is making it so once. -/
theorem absolute_absolute (name : String) : absolute (absolute name) = absolute name := by
  cases hstd : Text.startsWith "std::" name with
  | true =>
    have hself : absolute name = name := by rw [absolute, if_pos hstd]
    rw [hself, hself]
  | false =>
    cases hinteger : integerTypes.lookup name with
    | some integer =>
      have hname : absolute name = integer := by
        rw [absolute, hstd, hinteger]
        rfl
      rw [hname]
      exact absolute_integer hinteger
    | none =>
      have hname := absolute_eq_scoped hstd hinteger
      have hscoped : String.ofList (globalScope (dotsToScopes (absolute name).toList)) =
          absolute name := by
        rw [hname, String.toList_ofList, dotsToScopes_of_not_mem (not_mem_globalScope _),
          globalScope_globalScope]
      cases hstdScoped : Text.startsWith "std::" (absolute name) with
      | true => exact if_pos hstdScoped
      | false =>
        have hintegerScoped : integerTypes.lookup (absolute name) = none := by
          by_cases hcolon : ':' ∈ (absolute name).toList
          · exact lookup_integerTypes_of_mem (by decide) hcolon
          · rw [hname, String.toList_ofList] at hcolon
            rw [hname, globalScope_of_no_colon hcolon, String.ofList_toList]
            exact hinteger
        rw [absolute_eq_scoped hstdScoped hintegerScoped, hscoped]

/-- A name that gets the global scope begins with a colon, and one that does not get it needs
none. -/
theorem globalScope_form (name : List Char) :
    (globalScope name).head? = some ':' ∨ ':' ∉ (globalScope name).drop 2 := by
  unfold globalScope
  split
  · simp
  · next c rest =>
    split
    · exact Or.inl rfl
    · next hscope =>
      by_cases hc : c = ':'
      · exact Or.inl (congrArg some hc)
      · exact Or.inr fun hmem => hscope ⟨hc, hmem⟩

/-- The forms of a fully qualified name, which is its own fully qualified name: a name of the
standard library, one from the global scope, a C++ integer type, or a name without dots and without
a scope. -/
theorem absolute_form (name : String) :
    absolute (absolute name) = absolute name ∧
      (Text.startsWith "std::" (absolute name) = true ∨
        (absolute name).toList.head? = some ':' ∨
        absolute name ∈ integerTypes.map Prod.snd ∨
        '.' ∉ (absolute name).toList ∧ ':' ∉ (absolute name).toList.drop 2) := by
  refine ⟨absolute_absolute name, ?_⟩
  cases hstd : Text.startsWith "std::" name with
  | true =>
    left
    rw [absolute, if_pos hstd]
    exact hstd
  | false =>
    cases hinteger : integerTypes.lookup name with
    | some integer =>
      obtain ⟨before, after, hlist, -⟩ := List.lookup_eq_some_iff.1 hinteger
      have hname : absolute name = integer := by
        rw [absolute, hstd, hinteger]
        rfl
      rw [hname]
      exact Or.inr (Or.inr (Or.inl (List.mem_map.2 ⟨(name, integer), by simp [hlist], rfl⟩)))
    | none =>
      rw [absolute_eq_scoped hstd hinteger, String.toList_ofList]
      rcases globalScope_form (dotsToScopes name.toList) with hglobal | hlocal
      · exact Or.inr (Or.inl hglobal)
      · exact Or.inr (Or.inr (Or.inr ⟨not_mem_globalScope _, hlocal⟩))

example : absolute "a.b" = "::a::b" ∧ absolute "a:b" = "a:b" := by decide

theorem head?_dotsToScopes {name : List Char} {c : Char} (h : (dotsToScopes name).head? = some c) :
    name.head? = some c ∨ c = ':' := by
  fun_cases dotsToScopes name with
  | case1 => exact Or.inl h
  | case2 rest => exact Or.inr (Option.some.inj h).symm
  | case3 d rest hd =>
    rw [dotsToScopes] at h
    · exact Or.inl h
    · exact hd

/-- Making a name fully qualified puts a colon in front of it, or an integer type in its place. -/
theorem head?_absolute {name : String} {c : Char} (h : (absolute name).toList.head? = some c) :
    name.toList.head? = some c ∨ c = ':' ∨ ∃ e ∈ integerTypes, e.2.toList.head? = some c := by
  cases hstd : Text.startsWith "std::" name with
  | true =>
    rw [absolute, if_pos hstd] at h
    exact Or.inl h
  | false =>
    cases hinteger : integerTypes.lookup name with
    | some integer =>
      obtain ⟨before, after, hlist, -⟩ := List.lookup_eq_some_iff.1 hinteger
      rw [absolute, hstd, hinteger] at h
      exact Or.inr (Or.inr ⟨(name, integer), by simp [hlist], h⟩)
    | none =>
      rw [absolute_eq_scoped hstd hinteger, String.toList_ofList] at h
      rcases globalScope_cases (dotsToScopes name.toList) with hname | hname
      · rw [hname] at h
        exact (head?_dotsToScopes h).imp_right Or.inl
      · rw [hname] at h
        exact Or.inr (Or.inl (Option.some.inj h).symm)

/-- What is left of a name inside of a namespace ends the name. -/
theorem relativeTo_suffix (package : List String) (name : String) :
    (relativeTo package name).toList <:+ name.toList := by
  unfold relativeTo
  split
  · exact List.suffix_refl _
  · split
    · next rest hrest =>
      split
      · exact List.suffix_refl _
      · obtain ⟨chars, hchars, rfl⟩ := Option.map_eq_some_iff.1 hrest
        rw [String.toList_ofList, Text.append_of_afterStart? hchars]
        exact List.suffix_append _ _
    · exact List.suffix_refl _

end FluentGen.Name
