import FluentGen.Name.Reference
import FluentGen.Proofs.Pattern.Literal
import FluentGen.Proofs.Text.Lines
import FluentGen.Proofs.Text.Stripped
import Mathlib.Data.List.TakeWhile

/-!
The reference to a path where the folders that are left out are written without metacharacters. The
first folder of the list that begins the path is taken away, and all slashes behind it. A folder
without a name is one of the list, too: it begins every path, so behind it no folder counts, and of
the path only the slashes at its start are taken away.
-/

namespace FluentGen.Name

/-- A folder as it is listed, without the slash that may end it. -/
def bareFolder (folder : String) : String :=
  (Text.stripEnd? "/" folder).getD folder

/-- The folders of a list, those without a name among them. -/
def listedFolders (folders : String) : List String :=
  (Text.split ',' folders).map bareFolder

/-- The folders of a list that have a name. -/
def namedFolders (folders : String) : List String :=
  (listedFolders folders).filter fun folder => !folder.isEmpty

/-- The first of the folders that begins a path. -/
def firstFolder? (path : String) (folders : List String) : Option String :=
  folders.find? fun folder => Text.startsWith folder path

/-- A path without a folder that begins it and without the slashes behind the folder. -/
def behindFolder (path : String) : Option String → String
  | none => path
  | some folder => String.ofList ((path.toList.drop folder.toList.length).dropWhile (· = '/'))

section Literal

variable {folder folders path : String}

theorem isLiteral_bareFolder (h : Pattern.IsLiteral folder.toList) :
    Pattern.IsLiteral (bareFolder folder).toList := by
  unfold bareFolder
  cases hstrip : Text.stripEnd? "/" folder with
  | none => exact h
  | some front =>
    rw [Text.stripEnd?_eq_some_iff.1 hstrip, String.toList_append] at h
    exact fun c hc => h c (List.mem_append_left _ hc)

/-- The pattern of a folder without metacharacters. -/
theorem folderPattern?_eq (h : Pattern.IsLiteral folder.toList) :
    folderPattern? folder =
      some (.seq (Pattern.sequence (Pattern.literals (bareFolder folder).toList))
        (.loop 0 none .greedy (Pattern.literal {} '/'.toNat))) := by
  have htext : "(?:" ++ bareFolder folder ++ ")/*" =
      String.ofList ('(' :: '?' :: ':' :: ((bareFolder folder).toList ++ [')', '/', '*'])) := by
    apply String.toList_injective
    simp
  have hslash : '/' ∉ Pattern.metacharacters := by decide
  have hread := Pattern.read?_grouped (isLiteral_bareFolder h) hslash
  rw [← htext] at hread
  exact hread

-- The equations that are generated for the definition would evaluate the pattern of the folder.
theorem withoutFolder_cons (path folder : String) (rest : List String) :
    withoutFolder path (folder :: rest) =
      match folderPattern? folder with
      | none => .error .badPattern
      | some pattern =>
        match pattern.afterMatch? path with
        | some behind => .ok behind
        | none => withoutFolder path rest := by
  delta withoutFolder
  exact rfl

theorem withoutFolder_eq {list : List String}
    (h : ∀ folder ∈ list, Pattern.IsLiteral folder.toList) :
    withoutFolder path list = .ok (behindFolder path (firstFolder? path (list.map bareFolder))) := by
  induction list with
  | nil => rfl
  | cons folder list ih =>
    rw [withoutFolder_cons, folderPattern?_eq (h folder List.mem_cons_self)]
    dsimp only
    rw [Pattern.afterMatch?_grouped, Text.afterStart?_eq, List.map_cons, firstFolder?,
      List.find?_cons, Text.startsWith]
    cases (bareFolder folder).toList.isPrefixOf path.toList with
    | true => rfl
    | false => exact ih fun other hother => h other (List.mem_cons_of_mem folder hother)

theorem isLiteral_of_mem_split (h : Pattern.IsLiteral folders.toList)
    (hfolder : folder ∈ Text.split ',' folders) : Pattern.IsLiteral folder.toList := by
  obtain ⟨piece, hpiece, rfl⟩ := List.mem_map.1 hfolder
  rw [String.toList_ofList]
  exact fun c hc => h c (Text.mem_of_mem_splitChars hpiece hc)

theorem reference_eq (h : Pattern.IsLiteral folders.toList) (path : String) :
    reference path folders = .ok (behindFolder path (firstFolder? path (listedFolders folders))) :=
  withoutFolder_eq fun _ => isLiteral_of_mem_split h

end Literal

section Named

variable {path folder folders : String}

theorem firstFolder?_named_of_none (h : firstFolder? path (listedFolders folders) = none) :
    firstFolder? path (namedFolders folders) = none := by
  rw [firstFolder?, List.find?_eq_none] at h ⊢
  exact fun folder hfolder => h folder (List.mem_of_mem_filter hfolder)

theorem firstFolder?_named_of_ne (h : firstFolder? path (listedFolders folders) = some folder)
    (hname : folder ≠ "") : firstFolder? path (namedFolders folders) = some folder := by
  obtain ⟨hstart, before, behind, hlist, hbefore⟩ := List.find?_eq_some_iff_append.1 h
  refine List.find?_eq_some_iff_append.2 ⟨hstart, before.filter (!·.isEmpty),
    behind.filter (!·.isEmpty), ?_, fun other hother => hbefore other (List.mem_of_mem_filter hother)⟩
  rw [namedFolders, hlist, List.filter_append, List.filter_cons_of_pos (by simpa using hname)]

theorem exists_of_firstFolder? {list : List String} (h : firstFolder? path list = some folder) :
    ∃ rest, path.toList = folder.toList ++ rest := by
  have hstart : Text.startsWith folder path = true := (List.find?_eq_some_iff_append.1 h).1
  obtain ⟨rest, hrest⟩ := List.isPrefixOf_iff_prefix.1 hstart
  exact ⟨rest, hrest.symm⟩

/-- A beginning makes no difference to what is dropped exactly if all of it is dropped. -/
theorem dropWhile_append_eq_iff {p : Char → Bool} {front rest : List Char} :
    (front ++ rest).dropWhile p = rest.dropWhile p ↔ ∀ c ∈ front, p c = true := by
  induction front with
  | nil => simp
  | cons c front ih =>
    rw [List.cons_append, List.forall_mem_cons]
    cases hc : p c with
    | true => simp [hc, ih]
    | false =>
      simp only [List.dropWhile_cons, hc, Bool.false_eq_true, if_false, false_and, iff_false]
      intro heq
      have hlength := congrArg List.length heq
      have hshorter := (List.dropWhile_suffix p (l := rest)).length_le
      simp at hlength
      omega

theorem dropWhile_slashes_eq_self_iff {text : List Char} :
    text.dropWhile (· = '/') = text ↔ text.head? ≠ some '/' := by
  rw [List.dropWhile_eq_self_iff]
  cases text with
  | nil => simp
  | cons c rest => simp

/-- Where a folder without a name begins the path first, the answer is the one without such folders
exactly if there is nothing but slashes in the difference. -/
theorem behindFolder_nameless_iff :
    behindFolder path (some "") = behindFolder path (firstFolder? path (namedFolders folders)) ↔
      match firstFolder? path (namedFolders folders) with
      | none => path.toList.head? ≠ some '/'
      | some folder => ∀ c ∈ folder.toList, c = '/' := by
  rw [← String.toList_inj]
  cases hnamed : firstFolder? path (namedFolders folders) with
  | none =>
    simp only [behindFolder, String.toList_ofList, String.toList_empty, List.length_nil,
      List.drop_zero]
    exact dropWhile_slashes_eq_self_iff
  | some folder =>
    obtain ⟨rest, hrest⟩ := exists_of_firstFolder? hnamed
    simp only [behindFolder, String.toList_ofList, String.toList_empty, List.length_nil,
      List.drop_zero, hrest, List.drop_left, dropWhile_append_eq_iff, decide_eq_true_eq]

end Named

/-- The reference to a path, given a list of folders without metacharacters. The first folder that
begins the path is taken away with all slashes behind it, and without one the path stays as it is.
The folders without a name count, too. One of them is met first exactly if no folder with a name that
stands before it begins the path; then the answer is the one that the folders with a name give only
if the path has no slash at its start that is to stay, and no folder that is more than slashes. -/
theorem reference_of_folders {folders : String} (h : Pattern.IsLiteral folders.toList)
    (path : String) :
    reference path folders = .ok (behindFolder path (firstFolder? path (listedFolders folders))) ∧
    (reference path folders = .ok (behindFolder path (firstFolder? path (namedFolders folders))) ↔
      (firstFolder? path (listedFolders folders) = some "" →
        match firstFolder? path (namedFolders folders) with
        | none => path.toList.head? ≠ some '/'
        | some folder => ∀ c ∈ folder.toList, c = '/')) := by
  refine ⟨reference_eq h path, ?_⟩
  rw [reference_eq h path, Except.ok.injEq]
  cases hfirst : firstFolder? path (listedFolders folders) with
  | none => simp [firstFolder?_named_of_none hfirst]
  | some folder =>
    by_cases hname : folder = ""
    · rw [hname, behindFolder_nameless_iff]
      simp
    · simp [firstFolder?_named_of_ne hfirst hname, hname]

/-- An empty list takes the slash at the start of a path away, and an empty place in a list keeps the
folder behind it from being found. -/
theorem reference_of_folders_nameless :
    Pattern.IsLiteral "".toList ∧ Pattern.IsLiteral "out/,,gen".toList ∧
      reference "/gen/x.h" "" = .ok "gen/x.h" ∧
      reference "gen/x.h" "out/,,gen" = .ok "gen/x.h" ∧
      behindFolder "gen/x.h" (firstFolder? "gen/x.h" (namedFolders "out/,,gen")) = "x.h" ∧
      reference "gen/x.h" "out/,,gen" ≠ .ok "x.h" := by
  have hempty : Pattern.IsLiteral "".toList := by decide
  have hlist : Pattern.IsLiteral "out/,,gen".toList := by decide
  have hnameless : firstFolder? "gen/x.h" (listedFolders "out/,,gen") = some "" := by decide
  have hnamed : firstFolder? "gen/x.h" (namedFolders "out/,,gen") = some "gen" := by decide
  have hbehind : behindFolder "gen/x.h" (firstFolder? "gen/x.h" (namedFolders "out/,,gen")) =
      "x.h" := by decide
  obtain ⟨hpath, -⟩ := reference_of_folders hempty "/gen/x.h"
  obtain ⟨hfirst, hagrees⟩ := reference_of_folders hlist "gen/x.h"
  refine ⟨hempty, hlist, hpath, hfirst, hbehind, fun hshort => ?_⟩
  have hslashes := hagrees.1 (hshort.trans (congrArg Except.ok hbehind.symm)) hnameless
  rw [hnamed] at hslashes
  exact absurd (hslashes 'g' (by decide)) (by decide)

end FluentGen.Name
