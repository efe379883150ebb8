import FluentGen.Proofs.Settings.Checks

/-!
Settings that are accepted. They keep the rules between settings, and written out they are accepted
again and stay as they are.
-/

namespace FluentGen.Settings

/-- The keys of all settings. -/
def settingKeys : List String :=
  ["proto", "header", "source", "interface", "make_interface", "descriptor_set", "proto_path",
    "max_field_depth", "use_validator", "validator_header", "conv_deps_file",
    "proto_builder_config", "template_builder_strip_prefix_dir", "tpl_value_header"]

/-- What a run relies on in its settings, written out: all of them are there, an interface has a file,
a header of validators comes with the validator, and the limit of the depth is a number that is not
negative, for which a truth value may stand. -/
structure Consistent (entries : List (String × Value)) : Prop where
  keys : entries.map Prod.fst = settingKeys
  interface : entries.lookup "make_interface" = some (.bool true) →
    ∃ file, file ≠ "" ∧ entries.lookup "interface" = some (.text file)
  validator : ∀ file, file ≠ "" → entries.lookup "validator_header" = some (.text file) →
    entries.lookup "use_validator" = some (.bool true)
  depth : (∃ n, 0 ≤ n ∧ entries.lookup "max_field_depth" = some (.int n)) ∨
    ∃ b, entries.lookup "max_field_depth" = some (.bool b)

/-- The settings of the keys that have been given, and those that hold without being given, pass
their checks. -/
structure Settled (given : List String) (s : Settings) : Prop where
  selection : "proto" ∈ given → selectionFlag (.text s.selection) = .ok s.selection
  header : "header" ∈ given → s.header ≠ ""
  source : "source" ∈ given → s.source ≠ ""
  descriptorSet : s.descriptorSet ≠ some ""

theorem exists_of_given {α : Type} {check : Check α} {use : α → Settings} {key : String}
    {value : Value} {after : Settings}
    (h : (match check value with
      | .ok a => Except.ok (use a)
      | .error complaint => .error (Problem.invalid key complaint)) = .ok after) :
    ∃ a, check value = .ok a ∧ use a = after := by
  split at h
  · next a ha =>
    cases h
    exact ⟨a, ha, rfl⟩
  · cases h

namespace Settled

variable {given : List String} {s after : Settings} {key : String} {value : Value}

/-- What is required is not concerned by another key. -/
theorem cons (hs : Settled given s) (hkey : key ∉ requiredKeys)
    (hset : after.descriptorSet ≠ some "")
    (hselection : after.selection = s.selection) (hheader : after.header = s.header)
    (hsource : after.source = s.source) : Settled (key :: given) after := by
  simp only [requiredKeys, List.mem_cons, List.not_mem_nil, or_false, not_or] at hkey
  refine ⟨fun hgiven => ?_, fun hgiven => ?_, fun hgiven => ?_, hset⟩
  · rw [hselection]
    exact hs.selection (List.mem_of_ne_of_mem (Ne.symm hkey.1) hgiven)
  · rw [hheader]
    exact hs.header (List.mem_of_ne_of_mem (Ne.symm hkey.2.1) hgiven)
  · rw [hsource]
    exact hs.source (List.mem_of_ne_of_mem (Ne.symm hkey.2.2) hgiven)

theorem assign (hs : Settled given s) (h : s.assign key value = .ok after) :
    Settled (key :: given) after := by
  unfold Settings.assign at h
  split at h
  case h_1 =>
    obtain ⟨flag, hflag, rfl⟩ := exists_of_given h
    obtain ⟨rfl, -⟩ := selectionFlag_eq_ok_iff.1 hflag
    exact ⟨fun _ => hflag, by simpa using hs.header, by simpa using hs.source, hs.descriptorSet⟩
  case h_2 =>
    obtain ⟨header, hheader, rfl⟩ := exists_of_given h
    exact ⟨by simpa using hs.selection, fun _ => (nonEmptyText_eq_ok_iff.1 hheader).2,
      by simpa using hs.source, hs.descriptorSet⟩
  case h_3 =>
    obtain ⟨source, hsource, rfl⟩ := exists_of_given h
    exact ⟨by simpa using hs.selection, by simpa using hs.header,
      fun _ => (nonEmptyText_eq_ok_iff.1 hsource).2, hs.descriptorSet⟩
  case h_6 =>
    obtain ⟨file?, hfile, rfl⟩ := exists_of_given h
    exact hs.cons (by decide) (optionalText_eq_ok_iff.1 hfile).2 rfl rfl rfl
  case h_15 => cases h
  all_goals
    obtain ⟨result, -, rfl⟩ := exists_of_given h
    exact hs.cons (by decide) hs.descriptorSet rfl rfl rfl

theorem mono {others : List String} (hs : Settled given s) (h : ∀ other ∈ others, other ∈ given) :
    Settled others s where
  selection hother := hs.selection (h _ hother)
  header hother := hs.header (h _ hother)
  source hother := hs.source (h _ hother)
  descriptorSet := hs.descriptorSet

theorem assignAll {entries : List (String × Value)} (hs : Settled given s)
    (h : Settings.assignAll s entries = (after, [])) :
    Settled (entries.map Prod.fst ++ given) after := by
  induction entries generalizing given s with
  | nil =>
    cases h
    exact hs
  | cons entry rest ih =>
    unfold Settings.assignAll at h
    split at h
    · next _ hfirst =>
      refine (ih (hs.assign hfirst) h).mono fun other hother => ?_
      simp only [List.map_cons, List.cons_append, List.mem_cons, List.mem_append] at hother ⊢
      tauto
    · cases h

theorem initial : Settled [] Settings.initial where
  selection hgiven := absurd hgiven List.not_mem_nil
  header hgiven := absurd hgiven List.not_mem_nil
  source hgiven := absurd hgiven List.not_mem_nil
  descriptorSet := by decide

end Settled

/-- The rules between settings refuse an interface without a file, and change nothing but whether the
validator is used. -/
theorem complete_eq_ok_iff {s after : Settings} :
    s.complete = .ok after ↔
      (s.makeInterface = true → s.interface ≠ "") ∧
        after = { s with useValidator := s.useValidator || !s.validatorHeader.isEmpty } := by
  unfold complete
  split
  · next hmissing =>
    have hrule : ¬ (s.makeInterface = true → s.interface ≠ "") := by simpa using hmissing
    simp [hrule]
  · next hpresent =>
    have hrule : s.makeInterface = true → s.interface ≠ "" := by simpa using hpresent
    rw [Except.ok.injEq, eq_comm]
    exact ⟨fun h => ⟨hrule, h⟩, And.right⟩

/-- Settings are accepted if no entry is refused, all that is required is there, and the rules between
settings are kept. -/
theorem ofValue_eq_ok_iff {value : Value} {s : Settings} :
    ofValue value = .ok s ↔
      ∃ entries before, value = .object entries ∧ assignAll initial entries = (before, []) ∧
        (∀ key ∈ requiredKeys, key ∈ entries.map Prod.fst) ∧ before.complete = .ok s := by
  constructor
  · intro h
    unfold ofValue at h
    split at h
    · next entries =>
      cases hassign : assignAll initial entries with
      | mk before problems =>
        rw [hassign] at h
        dsimp only at h
        split at h
        · next hnone =>
          obtain ⟨rfl, habsent⟩ := List.append_eq_nil_iff.1 hnone
          refine ⟨entries, before, rfl, hassign, fun key hkey => ?_, h⟩
          simpa using List.filter_eq_nil_iff.1 (List.map_eq_nil_iff.1 habsent) key hkey
        · cases h
    · cases h
  · rintro ⟨entries, before, rfl, hassign, hrequired, hcomplete⟩
    have habsent : (requiredKeys.filter fun key => !entries.any (·.1 == key)) = [] := by
      rw [List.filter_eq_nil_iff]
      intro key hkey
      simpa using hrequired key hkey
    rw [ofValue, hassign, habsent]
    exact hcomplete

/-- The entries of settings that are written out in full. -/
def entries (s : Settings) : List (String × Value) :=
  match s.toValue with
  | .object entries => entries
  | _ => []

theorem toValue_eq (s : Settings) : s.toValue = .object s.entries := rfl

theorem keys_entries (s : Settings) : s.entries.map Prod.fst = settingKeys := rfl

theorem assignAll_entries {s : Settings} (hs : Settled requiredKeys s) :
    assignAll initial s.entries = (s, []) := by
  have hselection := hs.selection (by decide)
  have hheader : nonEmptyText (.text s.header) = .ok s.header :=
    nonEmptyText_eq_ok_iff.2 ⟨rfl, hs.header (by decide)⟩
  have hsource : nonEmptyText (.text s.source) = .ok s.source :=
    nonEmptyText_eq_ok_iff.2 ⟨rfl, hs.source (by decide)⟩
  have hset : optionalText ((s.descriptorSet.map Value.text).getD .absent) = .ok s.descriptorSet :=
    optionalText_eq_ok_iff.2 ⟨rfl, hs.descriptorSet⟩
  simp only [entries, toValue, assignAll, assign, hselection, hheader, hsource, hset, text, truth,
    textList_texts, limit_toValue]

theorem consistent_entries {s : Settings} (hinterface : s.makeInterface = true → s.interface ≠ "")
    (hvalidator : s.validatorHeader ≠ "" → s.useValidator = true) : Consistent s.entries where
  keys := keys_entries s
  interface hmake := by
    have hlookup : s.entries.lookup "make_interface" = some (.bool s.makeInterface) := rfl
    rw [hlookup, Option.some.injEq, Value.bool.injEq] at hmake
    exact ⟨s.interface, hinterface hmake, rfl⟩
  validator file hfile hheader := by
    have hlookup : s.entries.lookup "validator_header" = some (.text s.validatorHeader) := rfl
    rw [hlookup, Option.some.injEq, Value.text.injEq] at hheader
    subst hheader
    rw [← hvalidator hfile]
    rfl
  depth := by
    have hlookup : s.entries.lookup "max_field_depth" = some s.maxFieldDepth.toValue := rfl
    rw [hlookup]
    cases s.maxFieldDepth with
    | count n => exact Or.inl ⟨n, by omega, rfl⟩
    | truth b => exact Or.inr ⟨b, rfl⟩

/-- Settings that are accepted, written out in full, keep the rules between settings, are accepted
once more, and stay as they are. -/
theorem settled_of_accepted {value : Value} {s : Settings} (h : ofValue value = .ok s) :
    ∃ entries, s.toValue = .object entries ∧ Consistent entries ∧
      ofValue (.object entries) = .ok s := by
  obtain ⟨given, before, rfl, hassign, hrequired, hcomplete⟩ := ofValue_eq_ok_iff.1 h
  obtain ⟨hinterface, rfl⟩ := complete_eq_ok_iff.1 hcomplete
  have hbefore : Settled requiredKeys before :=
    (Settled.initial.assignAll hassign).mono fun key hkey => by simpa using hrequired key hkey
  have hsettled : Settled requiredKeys
      { before with useValidator := before.useValidator || !before.validatorHeader.isEmpty } :=
    ⟨hbefore.selection, hbefore.header, hbefore.source, hbefore.descriptorSet⟩
  have hvalidator : before.validatorHeader ≠ "" →
      (before.useValidator || !before.validatorHeader.isEmpty) = true := by
    intro hheader
    simp [hheader]
  refine ⟨_, toValue_eq _, consistent_entries hinterface hvalidator,
    ofValue_eq_ok_iff.2 ⟨_, _, rfl, assignAll_entries hsettled, ?_, ?_⟩⟩
  · rw [keys_entries]
    decide
  · exact complete_eq_ok_iff.2 ⟨hinterface, by simp⟩

/-- A path alone, a header of validators, and a truth value for the limit of the depth. -/
theorem settled_of_accepted_coerced :
    let value := Value.object [("source", .text "a.cc"), ("proto", .text "p.A:a.proto"),
      ("header", .text "a.h"), ("proto_path", .text "protos"), ("validator_header", .text "v.h"),
      ("max_field_depth", .bool true)]
    let s : Settings :=
      { selection := "p.A:a.proto", header := "a.h", source := "a.cc", importPaths := ["protos"],
        maxFieldDepth := .truth true, useValidator := true, validatorHeader := "v.h" }
    ofValue value = .ok s ∧ ∃ entries, s.toValue = .object entries ∧ Consistent entries ∧
      ofValue (.object entries) = .ok s := by
  intro value s
  have haccepted : ofValue value = .ok s := rfl
  exact ⟨haccepted, settled_of_accepted haccepted⟩

end FluentGen.Settings
