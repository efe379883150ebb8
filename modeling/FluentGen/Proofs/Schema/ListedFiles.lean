import FluentGen.Proofs.Except
import FluentGen.Proofs.Settings.Checks
import FluentGen.Schema.Selection

/-!
The files of a flag, which are those that are searched and those that are compiled. The check of a
flag wants something behind the colon, the search wants a file. Between commas nothing need stand, so
a flag that is accepted lists no file if there are only commas behind its colon. Such a flag fails if
a mode is to select from the first file, and only then.
-/

namespace FluentGen.Schema.Selection

/-- A text of so many commas. -/
def commas (n : Nat) : String :=
  String.ofList (List.replicate n ',')

variable {pool : Pool} {flag names files : String}

theorem exists_commas_iff (hfiles : files ≠ "") :
    (∀ c ∈ files.toList, c = ',') ↔ ∃ n, files = commas (n + 1) := by
  constructor
  · intro h
    refine ⟨files.toList.length - 1, ?_⟩
    have hlength : files.toList.length ≠ 0 := by simpa using hfiles
    rw [commas, Nat.sub_one_add_one hlength, ← List.eq_replicate_of_mem h, String.ofList_toList]
  · rintro ⟨n, rfl⟩ c hc
    rw [commas, String.toList_ofList] at hc
    exact List.eq_of_mem_replicate hc

theorem listedFiles_eq_nil_iff (hnames : ':' ∉ names.toList) :
    listedFiles (names ++ ":" ++ files) = [] ↔ ∀ c ∈ files.toList, c = ',' := by
  have hcut : Text.cut ':' (names ++ ":" ++ files) = (names, some files) :=
    Text.cut_eq_some_iff.2 ⟨hnames, rfl⟩
  rw [listedFiles, hcut, ← Text.splitChars_blank_iff, List.filter_eq_nil_iff]
  simp [Text.split]

theorem ofNames_ne_explicit_iff :
    SearchMode.ofNames names ≠ .explicit ↔ names ∈ ["*", "*+", "**"] := by
  unfold SearchMode.ofNames
  split <;> simp_all

theorem unknownMessage_of_named {list : List String} {failure : Failure}
    (h : named pool list = .error failure) : ∃ name, failure = .unknownMessage name := by
  induction list with
  | nil => cases h
  | cons name rest ih =>
    unfold named at h
    split at h
    · cases h
      exact ⟨name, rfl⟩
    · exact ih (of_map_eq_error h)

/-- How a flag is read: all files must be there, and then names are looked up or a mode selects from
the first file. -/
theorem ofFlag_eq (pool : Pool) (flag : String) :
    ofFlag pool flag =
      let names := (Text.cut ':' flag).1
      let mode := SearchMode.ofNames names
      if (listedFiles flag).any fun file => (pool.file? file).isNone then
        .error (.unknownFiles (listedFiles flag))
      else if mode = .explicit then (named pool (Text.split ',' names)).map (⟨mode, ·⟩)
      else
        match listedFiles flag with
        | [] => .error .noFiles
        | file :: _ => .ok ⟨mode, pool.select file mode⟩ := by
  unfold ofFlag
  simp only [List.nil_append]
  split
  · rfl
  · split
    · cases named pool (Text.split ',' (Text.cut ':' flag).1) with
      | ok messages => rfl
      | error failure => rfl
    · rfl

/-- Why a flag fails. Files are missed only where a mode selects from them and none is listed. -/
theorem ofFlag_error_cases {failure : Failure} (h : ofFlag pool flag = .error failure) :
    failure = .unknownFiles (listedFiles flag) ∨ (∃ name, failure = .unknownMessage name) ∨
      failure = .noFiles ∧ (Text.cut ':' flag).1 ∈ ["*", "*+", "**"] ∧ listedFiles flag = [] := by
  rw [ofFlag_eq] at h
  dsimp only at h
  split at h
  · cases h
    exact Or.inl rfl
  · split at h
    · exact Or.inr (Or.inl (unknownMessage_of_named (of_map_eq_error h)))
    · next hmode =>
      split at h
      · next hnone =>
        cases h
        exact Or.inr (Or.inr ⟨rfl, ofNames_ne_explicit_iff.1 hmode, hnone⟩)
      · cases h

theorem ofFlag_of_no_files (hmarker : (Text.cut ':' flag).1 ∈ ["*", "*+", "**"])
    (hnone : listedFiles flag = []) : ofFlag pool flag = .error .noFiles := by
  have hmode := ofNames_ne_explicit_iff.2 hmarker
  simp [ofFlag_eq, hnone, hmode]

theorem message_unknownFiles (list : List String) : (Failure.unknownFiles list).message =
    "Could not load proto_db: (" ++ ",".intercalate list ++ ")" := rfl

theorem message_unknownMessage (name : String) : (Failure.unknownMessage name).message =
    "FieldDescriptor not found for: '" ++ name ++ "'" := rfl

/-- The other failures of a flag are worded otherwise than a missing file. -/
theorem ofFlag_message_iff :
    (∃ failure, ofFlag pool flag = .error failure ∧
        failure.message = "At least one proto_files required, none given") ↔
      (Text.cut ':' flag).1 ∈ ["*", "*+", "**"] ∧ listedFiles flag = [] := by
  constructor
  · rintro ⟨failure, hfailure, hmessage⟩
    have hhead := congrArg (fun text => text.toList.head?) hmessage
    rcases ofFlag_error_cases hfailure with rfl | ⟨name, rfl⟩ | ⟨-, hnone⟩
    · simp [message_unknownFiles] at hhead
    · simp [message_unknownMessage] at hhead
    · exact hnone
  · rintro ⟨hmarker, hnone⟩
    exact ⟨.noFiles, ofFlag_of_no_files hmarker hnone, rfl⟩

/-- What may be missed in a flag that is accepted. It lists no file exactly if there are only commas
behind its colon. Whatever the schema is, it fails for want of a file exactly if, besides, a mode
stands in the place of the names. -/
theorem files_of_accepted {value : Settings.Value} (h : Settings.selectionFlag value = .ok flag) :
    (listedFiles flag = [] ↔
      ∃ names n, ':' ∉ names.toList ∧ flag = names ++ ":" ++ commas (n + 1)) ∧
    ∀ pool : Pool,
      (∃ failure, ofFlag pool flag = .error failure ∧
        failure.message = "At least one proto_files required, none given") ↔
      ∃ marker ∈ ["*", "*+", "**"], ∃ n, flag = marker ++ ":" ++ commas (n + 1) := by
  obtain ⟨-, names, files, hcolon, -, hfiles, rfl⟩ := Settings.selectionFlag_eq_ok_iff.1 h
  have hcut : Text.cut ':' (names ++ ":" ++ files) = (names, some files) :=
    Text.cut_eq_some_iff.2 ⟨hcolon, rfl⟩
  have hsides {others rest : String} (hothers : ':' ∉ others.toList)
      (heq : names ++ ":" ++ files = others ++ ":" ++ rest) : names = others ∧ files = rest := by
    have hagain := hcut.symm.trans (Text.cut_eq_some_iff.2 ⟨hothers, heq⟩)
    simpa using hagain
  have hnone : listedFiles (names ++ ":" ++ files) = [] ↔ ∃ n, files = commas (n + 1) :=
    (listedFiles_eq_nil_iff hcolon).trans (exists_commas_iff hfiles)
  constructor
  · rw [hnone]
    constructor
    · rintro ⟨n, rfl⟩
      exact ⟨names, n, hcolon, rfl⟩
    · rintro ⟨others, n, hothers, heq⟩
      exact ⟨n, (hsides hothers heq).2⟩
  · intro pool
    rw [ofFlag_message_iff, hnone, hcut]
    constructor
    · rintro ⟨hmarker, n, rfl⟩
      exact ⟨names, hmarker, n, rfl⟩
    · rintro ⟨marker, hmarker, n, heq⟩
      have hplain : ∀ marker ∈ ["*", "*+", "**"], ':' ∉ marker.toList := by decide
      obtain ⟨rfl, hcommas⟩ := hsides (hplain marker hmarker) heq
      exact ⟨hmarker, n, hcommas⟩

/-- A mode with a comma in the place of the files. -/
theorem files_of_accepted_comma :
    Settings.selectionFlag (.text "*:,") = .ok "*:," ∧ listedFiles "*:," = [] ∧
      ∀ pool : Pool, ∃ failure, ofFlag pool "*:," = .error failure ∧
        failure.message = "At least one proto_files required, none given" := by
  have haccepted : Settings.selectionFlag (.text "*:,") = .ok "*:," := rfl
  obtain ⟨hlisted, hfails⟩ := files_of_accepted haccepted
  exact ⟨haccepted, hlisted.2 ⟨"*", 0, by decide, rfl⟩,
    fun pool => (hfails pool).2 ⟨"*", by decide, 0, rfl⟩⟩

end FluentGen.Schema.Selection
