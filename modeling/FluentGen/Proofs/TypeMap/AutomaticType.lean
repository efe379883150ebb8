import FluentGen.Proofs.Name.Scopes
import FluentGen.Proofs.TypeMap.Refiled
import FluentGen.Proofs.TypeMap.Builtin
import FluentGen.Schema.FieldType

/-!
The automatic entry of a field. Loading files an automatic entry under the fully qualified name of
its type, and a field asks for its entry by the fully qualified name of its own type. All spellings
of a type in a key have this name, so it does not matter in which of them the entry was written.
-/

namespace FluentGen

namespace Schema

/-- An element of the field is of the message or enum with a full name. -/
inductive Pool.HasElement (pool : Pool) (f : Field) (fullName : String) : Prop where
  | message {m : Message} (target : pool.targetMessage? f = some m) (name : m.fullName = fullName)
  | enum {e : EnumType} (target : f.target = .enum e) (name : e.fullName = fullName)

variable {pool : Pool} {f : Field} {fullName : String}

theorem Pool.cppType_of_element (h : pool.HasElement f fullName) (hmap : pool.isMap f = false) :
    pool.cppType f = Name.absolute fullName := by
  cases h with
  | @message m htarget hname =>
    have hentry : m.isMapEntry = false := by
      simpa [isMap, mapEntry?, htarget, Option.filter] using hmap
    rw [cppType, cppTypeTo, htarget]
    simp [hentry, hname]
  | enum htarget hname =>
    have hnone : pool.targetMessage? f = none := by rw [targetMessage?, htarget]
    rw [cppType, cppTypeTo, hnone, htarget]
    exact congrArg Name.absolute hname

end Schema

namespace TypeMap

variable {map merged : TypeMap}

section Lookup

/-- A key with a sigil is the sigil and the rest of the key. -/
theorem singleton_append_tail {sigil : Char} {key : String} (h : hasSigil sigil key = true) :
    String.singleton sigil ++ Text.tail key = key := by
  obtain ⟨rest, hrest⟩ := List.head?_eq_some_iff.1 (hasSigil_iff.1 h)
  apply String.toList_injective
  rw [String.toList_append, String.toList_singleton, Text.tail, hrest, String.toList_ofList]
  rfl

theorem tail_singleton_append (sigil : Char) (name : String) :
    Text.tail (String.singleton sigil ++ name) = name := by
  rw [Text.tail, String.toList_append, String.toList_singleton]
  exact String.ofList_toList

theorem lookup_putEntry {α : Type} (key : String) (value : α) (entries : List (String × α))
    (sought : String) :
    (putEntry key value entries).lookup sought =
      if sought = key then some value else entries.lookup sought := by
  induction entries with
  | nil =>
    rw [putEntry, List.lookup_cons, List.lookup_nil]
    by_cases hs : sought = key
    · rw [if_pos hs, beq_iff_eq.2 hs]
    · rw [if_neg hs, beq_eq_false_iff_ne.2 hs]
  | cons head rest ih =>
    obtain ⟨k, v⟩ := head
    unfold putEntry
    grind

/-- The type of a listed entry is found. -/
theorem isSome_lookup_putEntries {entries found : List (String × FieldOptions)} {type : String}
    (h : (found.lookup type).isSome ∨ ∃ e ∈ entries, Text.tail e.1 = type) :
    ((entries.foldl (fun found e => putEntry (Text.tail e.1) e.2 found) found).lookup
      type).isSome := by
  induction entries generalizing found with
  | nil =>
    refine h.resolve_right ?_
    rintro ⟨e, he, -⟩
    cases he
  | cons head rest ih =>
    apply ih
    rw [lookup_putEntry]
    by_cases htype : type = Text.tail head.1
    · exact Or.inl (by rw [if_pos htype]; rfl)
    · rw [if_neg htype]
      refine h.imp_right ?_
      rintro ⟨e, he, rfl⟩
      rcases List.mem_cons.1 he with rfl | he
      · exact absurd rfl htype
      · exact ⟨e, he, rfl⟩

/-- Automatic entries are found by what their keys say behind the sigil. -/
theorem automaticType?_eq_some_iff (hrules : KeepsRules map) {type : String} {o : FieldOptions} :
    map.automaticType? type = some o ↔
      map.get? (String.singleton automaticSigil ++ type) = some o ∧
        o.automatic.getD false = true := by
  have hfound : ∀ o, map.automaticType? type = some o →
      map.get? (String.singleton automaticSigil ++ type) = some o ∧
        o.automatic.getD false = true := by
    intro o h
    obtain ⟨e, he, hautomatic, rfl, rfl⟩ := exists_of_automaticType? h
    rw [singleton_append_tail (hasSigil_of_automatic (hrules e he) hautomatic)]
    exact ⟨(map.mem_entries_iff e).1 he, hautomatic⟩
  refine ⟨hfound o, ?_⟩
  rintro ⟨hentry, hautomatic⟩
  have hlisted : (map.automaticType? type).isSome := by
    apply isSome_lookup_putEntries
    refine Or.inr ⟨_, List.mem_filter.2 ⟨(map.mem_entries_iff (_, o)).2 hentry, hautomatic⟩, ?_⟩
    exact tail_singleton_append automaticSigil type
  obtain ⟨o', ho'⟩ := Option.isSome_iff_exists.1 hlisted
  rw [ho', ← (hfound o' ho').1, hentry]

end Lookup

section Filed

/-- An entry that no other one collides with is found under its filed key. -/
theorem get?_file_of_alone {e : String × FieldOptions} (he : e ∈ map.entries)
    (halone : ∀ f ∈ map.entries, filedKey f.1 f.2 = filedKey e.1 e.2 → f = e) :
    (file map).get? (filedKey e.1 e.2) = some (filedOptions e.2) := by
  obtain ⟨o, ho⟩ := Option.isSome_iff_exists.1 (isSome_get?_file he)
  obtain ⟨f, hf, hfiled⟩ := exists_of_get?_file ho
  obtain ⟨hkey, rfl⟩ := Prod.mk.inj hfiled
  rw [ho, halone f hf hkey]

/-- What is filed under an automatic key has a key with the sigil that names the same type. -/
theorem names_of_filedKey {e : String × FieldOptions} (hrule : brokenRule? e.1 e.2 = none)
    {name : String}
    (h : filedKey e.1 e.2 = String.singleton automaticSigil ++ Name.absolute name) :
    hasSigil automaticSigil e.1 = true ∧ automaticName e = Name.absolute name := by
  cases hautomatic : e.2.automatic.getD false with
  | true =>
    rw [filedKey_automatic hautomatic] at h
    exact ⟨hasSigil_of_automatic hrule hautomatic, (String.append_right_inj _).1 h⟩
  | false =>
    rw [filedKey_other hautomatic] at h
    rw [automaticName, h, tail_singleton_append, Name.absolute_absolute]
    refine ⟨?_, rfl⟩
    rw [hasSigil_iff, String.toList_append, String.toList_singleton]
    rfl

theorem filedOptions_of_automatic {o : FieldOptions} (h : o.automatic.getD false = true) :
    filedOptions o = { o with recurse := some (o.recurse.getD false) } := by
  rw [filedOptions, h]
  cases hrecurse : o.recurse with
  | none => rfl
  | some b =>
    have hself : { o with recurse := some b } = o := by rw [← hrecurse]
    exact hself.symm

end Filed

/-- An automatic entry reaches the fields of its type, in whichever way its key spells the type: it
is the only one whose key names the type, so a field that is no map finds it, and whether it
recurses is settled. -/
theorem automaticType?_of_spelling {text : String} {custom : Option String}
    (hload : load text custom = .ok map) (hmerged : merged? text custom = some merged)
    {names : List String} (hlength : 2 ≤ names.length)
    (hnames : ∀ n ∈ names, Name.IsIdentifier n) (hstd : names.head? ≠ some "std")
    {spelling : String} (hspelling : spelling ∈ Name.spellings names) {o : FieldOptions}
    (hentry : merged.get? (String.singleton automaticSigil ++ spelling) = some o)
    (hautomatic : o.automatic.getD false = true)
    (honly : ∀ e ∈ merged.entries, hasSigil automaticSigil e.1 = true →
      Name.absolute (Text.tail e.1) = "::" ++ Name.scopePath names →
        e.1 = String.singleton automaticSigil ++ spelling)
    {pool : Schema.Pool} {field : Schema.Field}
    (helement : pool.HasElement field (Name.dotPath names)) (hmap : pool.isMap field = false) :
    map.automaticType? (pool.cppType field) =
      some { o with recurse := some (o.recurse.getD false) } := by
  obtain ⟨merged', hmerged', haccept⟩ := accept_of_load hload
  obtain rfl : merged' = merged := Option.some.inj (hmerged'.symm.trans hmerged)
  obtain ⟨hverify, hfile⟩ := accept_eq_ok_iff.1 haccept
  have hrules : KeepsRules merged' := verifyEntries_eq_ok_iff.1 hverify
  have hname : Name.absolute spelling = "::" ++ Name.scopePath names :=
    Name.absolute_of_mem_spellings hlength hnames hstd hspelling
  have htype : pool.cppType field = Name.absolute spelling := by
    rw [Schema.Pool.cppType_of_element helement hmap, Name.absolute_dotPath hlength hnames, hname]
  let e := (String.singleton automaticSigil ++ spelling, o)
  have he : e ∈ merged'.entries := (merged'.mem_entries_iff e).2 hentry
  have hkey : filedKey e.1 e.2 = String.singleton automaticSigil ++ Name.absolute spelling := by
    rw [filedKey_automatic hautomatic, automaticName, tail_singleton_append]
  -- Also an entry that is not automatic would be in the way if its key were the filed one.
  have halone : ∀ f ∈ merged'.entries, filedKey f.1 f.2 = filedKey e.1 e.2 → f = e := by
    intro f hf hsame
    obtain ⟨hsigil, hnamed⟩ := names_of_filedKey (hrules f hf) (hsame.trans hkey)
    have hfirst : f.1 = e.1 := honly f hf hsigil (hnamed.trans hname)
    have hvalue := (merged'.mem_entries_iff f).1 hf
    rw [hfirst, hentry] at hvalue
    exact Prod.ext hfirst (Option.some.inj hvalue).symm
  have hfiled := get?_file_of_alone he halone
  rw [hkey, filedOptions_of_automatic hautomatic] at hfiled
  rw [automaticType?_eq_some_iff (keepsRules_of_load hload), htype, ← hfile]
  exact ⟨hfiled, hautomatic⟩

/-- A message in a package of one letter, with a dot in front in the key of its entry, beside an
entry for another message of the package. -/
theorem automaticType?_of_spelling_letter :
    let text := "type_map < key: '=.a.B' value < type: 'T' automatic: true > > " ++
      "type_map < key: '=a.C' value < type: 'U' automatic: true recurse: true > >"
    let address : Schema.Address := ⟨"f", [0]⟩
    let message : Schema.Message :=
      { address, name := "B", fullName := "a.B", container := none, enclosing := []
        outermost := "a.B", fields := [], enums := [], isMapEntry := false, options := none }
    let field : Schema.Field :=
      { name := "b", fullName := "a.M.b", number := 1, kind := .message, label := .repeated
        container := ⟨"f", [1]⟩, typeName := ".a.B", target := .message address, default := none
        annotations := [] }
    let pool : Schema.Pool := { messages := [message] }
    ∃ map merged : TypeMap, load text = .ok map ∧ merged? text none = some merged ∧
      ".a.B" ∈ Name.spellings ["a", "B"] ∧
      merged.get? "=.a.B" = some { type := "T", automatic := true } ∧
      pool.HasElement field (Name.dotPath ["a", "B"]) ∧ pool.isMap field = false ∧
      map.automaticType? (pool.cppType field) =
        some { type := "T", automatic := true, recurse := false } := by
  intro text address message field pool
  let map : TypeMap :=
    .ofList [("=::a::B", { type := "T", automatic := true, recurse := false }),
      ("=::a::C", { type := "U", automatic := true, recurse := true })]
  let merged : TypeMap :=
    .ofList [("=.a.B", { type := "T", automatic := true }),
      ("=a.C", { type := "U", automatic := true, recurse := true })]
  have hload : load text = .ok map := by decide +kernel
  have hmerged : merged? text none = some merged := by decide +kernel
  have hspelling : ".a.B" ∈ Name.spellings ["a", "B"] := by decide +kernel
  have hentry : merged.get? "=.a.B" = some { type := "T", automatic := true } := by
    decide +kernel
  have helement : pool.HasElement field (Name.dotPath ["a", "B"]) := .message rfl (by decide)
  have hmap : pool.isMap field = false := by decide
  exact ⟨map, merged, hload, hmerged, hspelling, hentry, helement, hmap,
    automaticType?_of_spelling hload hmerged (by decide) (by decide) (by decide) hspelling hentry
      rfl (by decide +kernel) helement hmap⟩

end TypeMap

end FluentGen
