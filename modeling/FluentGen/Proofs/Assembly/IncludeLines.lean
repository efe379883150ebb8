import FluentGen.Proofs.Assembly.Sections
import FluentGen.Proofs.Text.Stripped
import Mathlib.Data.List.Nodup
import Mathlib.Data.List.Perm.Basic
import Mathlib.Data.String.Basic

/-!
The include lines of a file. Each section has a line for every operand that is asked for in its
channels and not dropped, those of the system in front, with one empty line between the groups. The
lines of a group stand in the order of the operands as they are asked for. Where the remark is left
out this is not always the order of what is left, and an operand that is asked for with the remark
and without it has two lines.
-/

namespace FluentGen

namespace Assembly

open Schema (exportRemark)

section Remark

theorem withoutRemark_append (front : String) : withoutRemark (front ++ exportRemark) = front := by
  rw [withoutRemark, Text.stripEnd?_eq_some_iff.2 rfl, Option.getD_some]

/-- An operand that does not end with the remark stays as it is. -/
theorem withoutRemark_of_ne {operand : String} (h : ∀ front, operand ≠ front ++ exportRemark) :
    withoutRemark operand = operand := by
  rw [withoutRemark, Option.getD_eq_iff]
  refine Or.inr ⟨?_, rfl⟩
  rw [Option.eq_none_iff_forall_not_mem]
  intro front hfront
  exact h front (Text.stripEnd?_eq_some_iff.1 hfront)

theorem withoutRemark_cases (operand : String) :
    operand = withoutRemark operand ++ exportRemark ∨
      withoutRemark operand = operand ∧ ∀ front, operand ≠ front ++ exportRemark := by
  by_cases h : ∃ front, operand = front ++ exportRemark
  · obtain ⟨front, rfl⟩ := h
    left
    rw [withoutRemark_append]
  · right
    have hne : ∀ front, operand ≠ front ++ exportRemark := fun front heq => h ⟨front, heq⟩
    exact ⟨withoutRemark_of_ne hne, hne⟩

/-- What is left of an operand begins it. -/
theorem withoutRemark_isBeginning (operand : String) :
    (withoutRemark operand).toList <+: operand.toList := by
  rcases withoutRemark_cases operand with h | ⟨h, -⟩
  · conv_rhs => rw [h, String.toList_append]
    exact List.prefix_append _ _
  · exact h.symm ▸ List.prefix_refl operand.toList

end Remark

section Order

theorem not_lt_of_beginning {front text : List Char} (h : front <+: text) : ¬ text < front := by
  obtain ⟨rest, rfl⟩ := h
  induction front with
  | nil => exact List.not_lt_nil _
  | cons c front ih =>
    rw [List.cons_append, List.cons_lt_cons_iff]
    rintro (hlt | ⟨-, hlt⟩)
    · exact absurd hlt (Char.lt_irrefl c)
    · exact ih hlt

theorem prefix_of_not_lt {front text ending : List Char} (hfrom : ¬ text < front)
    (hto : text < front ++ ending) : front <+: text := by
  induction front generalizing text with
  | nil => exact List.nil_prefix
  | cons c front ih =>
    cases text with
    | nil => exact absurd (List.nil_lt_cons c front) hfrom
    | cons t text =>
      rw [List.cons_lt_cons_iff, not_or] at hfrom
      rw [List.cons_append, List.cons_lt_cons_iff] at hto
      rcases hto with hlt | ⟨rfl, hlt⟩
      · exact absurd hlt hfrom.1
      · exact List.cons_prefix_cons.2 ⟨rfl, ih (fun hless => hfrom.2 ⟨rfl, hless⟩) hlt⟩

theorem le_of_beginning {front text : String} (h : front.toList <+: text.toList) : front ≤ text :=
  not_lt.1 fun hlt => not_lt_of_beginning h (String.lt_iff.1 hlt)

/-- What stands between a text and one that goes on with it begins with that text. -/
theorem prefix_of_between {front text ending : String} (hfrom : front ≤ text)
    (hto : text < front ++ ending) : front.toList <+: text.toList := by
  have hto : text.toList < front.toList ++ ending.toList := by
    rw [← String.toList_append]
    exact String.lt_iff.1 hto
  exact prefix_of_not_lt (fun hlt => not_lt.2 hfrom (String.lt_iff.2 hlt)) hto

/-- Of two operands the first one does not stay in front exactly if the second one loses the remark
and then begins what is left of the first. -/
theorem not_lt_withoutRemark_iff {first second : String} (h : first < second) :
    ¬ withoutRemark first < withoutRemark second ↔
      second = withoutRemark second ++ exportRemark ∧
        (withoutRemark second).toList <+: (withoutRemark first).toList := by
  have hfirst : withoutRemark first ≤ first := le_of_beginning (withoutRemark_isBeginning first)
  rw [not_lt]
  constructor
  · intro hover
    rcases withoutRemark_cases second with hsecond | ⟨hsecond, -⟩
    · have hto : withoutRemark first < withoutRemark second ++ exportRemark := by
        rw [← hsecond]
        exact lt_of_le_of_lt hfirst h
      exact ⟨hsecond, prefix_of_between hover hto⟩
    · rw [hsecond] at hover
      exact absurd (lt_of_lt_of_le h (hover.trans hfirst)) (lt_irrefl _)
  · rintro ⟨-, hbegins⟩
    exact le_of_beginning hbegins

/-- Two operands become the same exactly if the second one is the first with the remark. -/
theorem withoutRemark_eq_iff {first second : String} (h : first < second) :
    withoutRemark first = withoutRemark second ↔
      second = first ++ exportRemark ∧ ∀ front, first ≠ front ++ exportRemark := by
  constructor
  · intro heq
    have hnot : ¬ withoutRemark first < withoutRemark second := heq ▸ String.lt_irrefl _
    obtain ⟨hsecond, -⟩ := (not_lt_withoutRemark_iff h).1 hnot
    rcases withoutRemark_cases first with hfirst | ⟨hfirst, hne⟩
    · rw [hsecond, ← heq, ← hfirst] at h
      exact absurd h (String.lt_irrefl _)
    · rw [← hfirst, heq, ← hsecond]
      exact ⟨rfl, hfirst.symm.trans heq ▸ hne⟩
  · rintro ⟨rfl, hne⟩
    rw [withoutRemark_append, withoutRemark_of_ne hne]

/-- In a list by increasing names a relation holds from each name to all behind it exactly if it
holds from each to all greater ones. -/
theorem pairwise_iff_forall_lt {names : List String} (h : names.Pairwise (· < ·))
    {R : String → String → Prop} :
    names.Pairwise R ↔ ∀ x ∈ names, ∀ y ∈ names, x < y → R x y := by
  induction names with
  | nil => simp
  | cons first rest ih =>
    obtain ⟨hfirst, hrest⟩ := List.pairwise_cons.1 h
    rw [List.pairwise_cons, ih hrest]
    constructor
    · rintro ⟨hhead, htail⟩ x hx y hy hlt
      rcases List.mem_cons.1 hx with rfl | hxrest
      · rcases List.mem_cons.1 hy with rfl | hyrest
        · exact absurd hlt (String.lt_irrefl _)
        · exact hhead y hyrest
      · rcases List.mem_cons.1 hy with rfl | hyrest
        · exact absurd (String.lt_trans hlt (hfirst x hxrest)) (String.lt_irrefl _)
        · exact htail x hxrest y hyrest hlt
    · intro hall
      refine ⟨fun y hy => hall first List.mem_cons_self y (List.mem_cons_of_mem _ hy)
        (hfirst y hy), ?_⟩
      intro x hx y hy
      exact hall x (List.mem_cons_of_mem _ hx) y (List.mem_cons_of_mem _ hy)

end Order

end Assembly

namespace NameSet

theorem pairwise_toList (names : NameSet) : names.toList.Pairwise (· < ·) :=
  List.pairwise_map.2 names.sorted

theorem mem_toList_iff {names : NameSet} {name : String} :
    name ∈ names.toList ↔ names.get? name = some () := by
  rw [← KeyMap.mem_entries_iff names (name, ()), toList, List.mem_map]
  constructor
  · rintro ⟨⟨_, ⟨⟩⟩, hentry, rfl⟩
    exact hentry
  · intro hentry
    exact ⟨_, hentry, rfl⟩

theorem mem_toList_foldl_add {names : NameSet} {more : List String} {name : String} :
    name ∈ (more.foldl add names).toList ↔ name ∈ names.toList ∨ name ∈ more := by
  induction more generalizing names with
  | nil => simp
  | cons first rest ih =>
    have hadd : name ∈ (names.add first).toList ↔ name = first ∨ name ∈ names.toList := by
      rw [mem_toList_iff, mem_toList_iff, add, KeyMap.get?_insert]
      by_cases hname : name = first <;> simp [hname]
    rw [List.foldl_cons, ih, hadd, List.mem_cons]
    tauto

/-- Sets of the same names are equal. -/
theorem ext_mem {names others : NameSet} (h : ∀ name, name ∈ names.toList ↔ name ∈ others.toList) :
    names = others := by
  apply KeyMap.ext_get?
  intro name
  have hname := h name
  rw [mem_toList_iff, mem_toList_iff] at hname
  cases hfirst : names.get? name with
  | some value => exact (hname.1 hfirst).symm
  | none =>
    cases hsecond : others.get? name with
    | some value => exact absurd (hfirst.symm.trans (hname.2 hsecond)) (by simp)
    | none => rfl

end NameSet

namespace Assembly

open Schema (exportRemark)

/-- One of the include sections: that of header and source together, that of one of them, or that
of the interface. -/
inductive IncludeSection where
  | all
  | header
  | interface
  | source
  deriving DecidableEq

namespace IncludeSection

/-- The name in the dictionary. -/
def name : IncludeSection → String
  | all => "INCLUDES"
  | header => "HEADER_INCLUDES"
  | interface => "INTERFACE_INCLUDES"
  | source => "SOURCE_INCLUDES"

/-- The channels whose operands are listed. -/
def channels : IncludeSection → List Channel
  | all => [.header, .source]
  | header => [.header]
  | interface => [.header]
  | source => [.source]

/-- The operands that are not listed. -/
def dropped (a : Assembly) : IncludeSection → List String
  | all => []
  | header => []
  | interface => a.droppedFromInterface
  | source => [inQuotes a.setup.header]

/-- Whether the operands are listed without the remark. -/
def plain : IncludeSection → Bool
  | source => true
  | _ => false

/-- An operand as it is listed. -/
def shown (s : IncludeSection) (operand : String) : String :=
  if s.plain then withoutRemark operand else operand

end IncludeSection

/-- An operand that a part asks for in one of the channels, or the interface if there is one. -/
inductive Asks (a : Assembly) (channels : List Channel) : String → Prop
  | part {part : Part} {c : Channel} {operand : String} (member : part ∈ a.parts)
      (channel : c ∈ channels) (asked : operand ∈ (part.code.includes.get c).toList) :
      Asks a channels operand
  | interface (there : a.setup.makeInterface = true) :
      Asks a channels (inQuotes a.setup.interfaceHeader)

/-- The line that includes an operand. -/
def includeLine (operand : String) : String := "#include " ++ operand

/-- The operands that a section lists, in order. -/
def listed (a : Assembly) (s : IncludeSection) : List String :=
  ((a.operands s.channels).toList.map s.shown).filter fun operand =>
    !(s.dropped a).contains operand

/-- The operands of system headers or of others among those that a section lists. -/
def group (a : Assembly) (s : IncludeSection) (system : Bool) : List String :=
  (a.listed s).filter fun operand => Text.startsWith "<" operand == system

section Operands

variable {a : Assembly} {s : IncludeSection} {operand : String}

theorem mem_operands_iff {channels : List Channel} :
    operand ∈ (a.operands channels).toList ↔ a.Asks channels operand := by
  rw [operands, NameSet.mem_toList_foldl_add, List.mem_append, List.mem_flatMap]
  have hempty : operand ∉ NameSet.toList {} := List.not_mem_nil
  constructor
  · rintro (hnone | ⟨part, hpart, hasked⟩ | hinterface)
    · exact absurd hnone hempty
    · obtain ⟨c, hc, hasked⟩ := List.mem_flatMap.1 hasked
      exact .part hpart hc hasked
    · split at hinterface
      · next hthere =>
        rw [List.mem_singleton.1 hinterface]
        exact .interface hthere
      · cases hinterface
  · rintro (⟨hpart, hc, hasked⟩ | hthere)
    · exact Or.inr (Or.inl ⟨_, hpart, List.mem_flatMap.2 ⟨_, hc, hasked⟩⟩)
    · rw [if_pos hthere]
      exact Or.inr (Or.inr List.mem_cons_self)

theorem mem_listed_iff :
    operand ∈ a.listed s ↔
      operand ∉ s.dropped a ∧ ∃ asked, a.Asks s.channels asked ∧ operand = s.shown asked := by
  rw [listed, List.mem_filter, List.mem_map, and_comm]
  simp only [mem_operands_iff, Bool.not_eq_true', List.contains_eq_mem, decide_eq_false_iff_not]
  simp only [eq_comm]

theorem pairwise_listed_iff {R : String → String → Prop} :
    (a.listed s).Pairwise R ↔
      ∀ x, a.Asks s.channels x → ∀ y, a.Asks s.channels y → x < y →
        s.shown x ∉ s.dropped a → s.shown y ∉ s.dropped a → R (s.shown x) (s.shown y) := by
  rw [listed, List.pairwise_filter, List.pairwise_map,
    pairwise_iff_forall_lt (NameSet.pairwise_toList _)]
  simp only [mem_operands_iff, Bool.not_eq_true', List.contains_eq_mem, decide_eq_false_iff_not]

theorem mem_group_iff {system : Bool} :
    operand ∈ a.group s system ↔
      operand ∈ a.listed s ∧ Text.startsWith "<" operand = system := by
  rw [group, List.mem_filter, beq_iff_eq]

theorem group_append_perm (a : Assembly) (s : IncludeSection) :
    (a.group s true ++ a.group s false).Perm (a.listed s) := by
  refine List.Perm.trans (.of_eq ?_)
    (List.filter_append_perm (fun operand => Text.startsWith "<" operand == true) (a.listed s))
  rw [group, group]
  congr 2
  funext operand
  cases Text.startsWith "<" operand <;> rfl

end Operands

section Lines

variable {a : Assembly} {s : IncludeSection}

theorem grouped_listed (a : Assembly) (s : IncludeSection) :
    grouped (a.listed s) =
      (a.group s true).map includeLine ++
        (if a.group s true ≠ [] ∧ a.group s false ≠ [] then [""] else []) ++
          (a.group s false).map includeLine := by
  have hsystem : (a.listed s).filter (Text.startsWith "<") = a.group s true := by
    rw [group]
    congr 1
    funext operand
    cases Text.startsWith "<" operand <;> rfl
  have hother : (a.listed s).filter (not ∘ Text.startsWith "<") = a.group s false := by
    rw [group]
    congr 1
    funext operand
    rw [Function.comp_apply]
    cases Text.startsWith "<" operand <;> rfl
  rw [grouped, List.partition_eq_filter_filter, hsystem, hother]
  dsimp only
  congr 2
  cases a.group s true with
  | nil => simp
  | cons _ _ => cases a.group s false <;> simp

/-- The lines of a section in the dictionary. -/
theorem includeLines_section (a : Assembly) (s : IncludeSection) :
    Layout.includeLines a.dictionary s.name = grouped (a.listed s) := by
  have hsection : (s.name, a.includeLines s.channels s.plain (s.dropped a)) ∈
      a.includeSections := by
    cases s with
    | all => exact .head _
    | header => exact .tail _ (.head _)
    | interface => exact .tail _ (.tail _ (.head _))
    | source => exact .tail _ (.tail _ (.tail _ (.head _)))
  exact includeLines_dictionary a _ hsection

theorem includeLine_injective : Function.Injective includeLine := by
  intro first second h
  exact String.append_right_inj _ |>.1 h

/-- No line but the empty one is repeated exactly if no operand is. -/
theorem nodup_lines_iff (a : Assembly) (s : IncludeSection) :
    ((grouped (a.listed s)).filter fun line => line ≠ "").Nodup ↔ (a.listed s).Nodup := by
  have hkept : ∀ operands : List String,
      (operands.map includeLine).filter (fun line => line ≠ "") = operands.map includeLine := by
    intro operands
    rw [List.filter_eq_self]
    intro line hline
    obtain ⟨operand, -, rfl⟩ := List.mem_map.1 hline
    simp [includeLine]
  have hgap : ∀ p : Prop, [Decidable p] →
      (if p then [""] else []).filter (fun line => decide (line ≠ "")) = [] := by
    intro p _
    split <;> simp
  rw [grouped_listed, List.filter_append, List.filter_append, hkept, hkept, hgap, List.append_nil,
    ← List.map_append, List.nodup_map_iff includeLine_injective,
    (group_append_perm a s).nodup_iff]

end Lines

/-- An operand that is asked for with the remark stands behind another one that goes on from it, and
both are listed in one group of a section. -/
structure Overtaken (a : Assembly) (s : IncludeSection) (operand other : String) : Prop where
  asked : a.Asks s.channels (operand ++ exportRemark)
  otherAsked : a.Asks s.channels other
  before : other < operand ++ exportRemark
  begins : operand.toList <+: (withoutRemark other).toList
  sameGroup : Text.startsWith "<" (withoutRemark other) = Text.startsWith "<" operand
  kept : operand ∉ s.dropped a
  otherKept : withoutRemark other ∉ s.dropped a

section Sorted

variable {a : Assembly} {s : IncludeSection}

/-- Both groups are in order exactly if operands of one group stay in the order in which they are
asked for. -/
theorem pairwise_groups_iff :
    ((a.group s true).Pairwise (· < ·) ∧ (a.group s false).Pairwise (· < ·)) ↔
      ∀ x, a.Asks s.channels x → ∀ y, a.Asks s.channels y → x < y →
        s.shown x ∉ s.dropped a → s.shown y ∉ s.dropped a →
          Text.startsWith "<" (s.shown x) = Text.startsWith "<" (s.shown y) →
            s.shown x < s.shown y := by
  rw [group, group, List.pairwise_filter, List.pairwise_filter, pairwise_listed_iff,
    pairwise_listed_iff]
  simp only [beq_iff_eq]
  constructor
  · rintro ⟨hsystem, hother⟩ x hx y hy hlt hkeptx hkepty hgroup
    cases hfirst : Text.startsWith "<" (s.shown x) with
    | true => exact hsystem x hx y hy hlt hkeptx hkepty hfirst (hgroup ▸ hfirst)
    | false => exact hother x hx y hy hlt hkeptx hkepty hfirst (hgroup ▸ hfirst)
  · intro hall
    constructor
    · intro x hx y hy hlt hkeptx hkepty hfirst hsecond
      exact hall x hx y hy hlt hkeptx hkepty (hfirst.trans hsecond.symm)
    · intro x hx y hy hlt hkeptx hkepty hfirst hsecond
      exact hall x hx y hy hlt hkeptx hkepty (hfirst.trans hsecond.symm)

/-- A section that keeps the remarks is in order. -/
theorem pairwise_groups (hplain : s.plain = false) :
    (a.group s true).Pairwise (· < ·) ∧ (a.group s false).Pairwise (· < ·) := by
  have hshown : s.shown = id := by
    funext operand
    simp [IncludeSection.shown, hplain]
  rw [pairwise_groups_iff, hshown]
  exact fun x _ y _ hlt _ _ _ => hlt

/-- A section without the remarks is in order exactly if no operand is overtaken. -/
theorem pairwise_groups_iff_not_overtaken (hplain : s.plain = true) :
    ((a.group s true).Pairwise (· < ·) ∧ (a.group s false).Pairwise (· < ·)) ↔
      ∀ operand other, ¬ a.Overtaken s operand other := by
  have hshown : s.shown = withoutRemark := by
    funext operand
    simp [IncludeSection.shown, hplain]
  rw [pairwise_groups_iff, hshown]
  constructor
  · intro hall operand other h
    have hfront := withoutRemark_append operand
    have hless := hall other h.otherAsked _ h.asked h.before h.otherKept
      (hfront.symm ▸ h.kept) (hfront.symm ▸ h.sameGroup)
    rw [hfront] at hless
    exact not_lt.2 (le_of_beginning h.begins) hless
  · intro hnone x hx y hy hlt hkeptx hkepty hgroup
    by_contra hnot
    obtain ⟨hy', hbegins⟩ := (not_lt_withoutRemark_iff hlt).1 hnot
    exact hnone (withoutRemark y) x
      ⟨hy' ▸ hy, hx, hy' ▸ hlt, hbegins, hgroup, hkepty, hkeptx⟩

theorem nodup_listed (hplain : s.plain = false) : (a.listed s).Nodup := by
  obtain ⟨hsystem, hother⟩ := pairwise_groups (a := a) hplain
  rw [← (group_append_perm a s).nodup_iff, List.nodup_append]
  refine ⟨hsystem.imp String.ne_of_lt, hother.imp String.ne_of_lt, ?_⟩
  rintro operand hfirst _ hsecond rfl
  exact absurd ((mem_group_iff.1 hfirst).2.symm.trans (mem_group_iff.1 hsecond).2) (by decide)

/-- A section without the remarks repeats an operand exactly if it is asked for with the remark and
without it. -/
theorem nodup_listed_iff (hplain : s.plain = true) :
    (a.listed s).Nodup ↔
      ∀ operand, a.Asks s.channels operand → a.Asks s.channels (operand ++ exportRemark) →
        (∀ front, operand ≠ front ++ exportRemark) → operand ∈ s.dropped a := by
  have hshown : s.shown = withoutRemark := by
    funext operand
    simp [IncludeSection.shown, hplain]
  rw [List.Nodup, pairwise_listed_iff, hshown]
  constructor
  · intro hall operand hwithout hwith hplainly
    by_contra hkept
    have hsame := withoutRemark_of_ne hplainly
    have hlt : operand < operand ++ exportRemark := by
      refine lt_of_le_of_ne (le_of_beginning ?_) ?_
      · rw [String.toList_append]
        exact List.prefix_append _ _
      · intro heq
        have hlength := congrArg String.length heq
        rw [String.length_append] at hlength
        have hremark : 0 < exportRemark.length := by decide
        omega
    refine hall operand hwithout _ hwith hlt ?_ ?_ ?_
    · rwa [hsame]
    · rwa [withoutRemark_append]
    · rw [hsame, withoutRemark_append]
  · intro hall x hx y hy hlt hkeptx hkepty heq
    obtain ⟨rfl, hplainly⟩ := (withoutRemark_eq_iff hlt).1 heq
    rw [withoutRemark_append] at hkepty
    exact hkepty (hall x hx hy hplainly)

theorem listed_of_perm {parts : List Part} (h : parts.Perm a.parts) :
    ({ a with parts } : Assembly).listed s = a.listed s := by
  have hoperands : ({ a with parts } : Assembly).operands s.channels = a.operands s.channels := by
    apply NameSet.ext_mem
    intro operand
    rw [mem_operands_iff, mem_operands_iff]
    constructor
    · rintro (⟨hpart, hc, hasked⟩ | hthere)
      · exact .part (h.mem_iff.1 hpart) hc hasked
      · exact .interface hthere
    · rintro (⟨hpart, hc, hasked⟩ | hthere)
      · exact .part (h.mem_iff.2 hpart) hc hasked
      · exact .interface hthere
  have hdropped : ∀ operand, operand ∈ s.dropped { a with parts } ↔ operand ∈ s.dropped a := by
    intro operand
    cases s with
    | interface =>
      exact (((h.flatMap_right _).append_left _).mem_iff :
        operand ∈ droppedFromInterface { a with parts } ↔ operand ∈ droppedFromInterface a)
    | _ => exact Iff.rfl
  rw [listed, listed, hoperands]
  apply List.filter_congr
  intro operand _
  simp only [List.contains_eq_mem, hdropped]

end Sorted

/-- Each include section of the dictionary has one line for every operand that is asked for in its
channels and not dropped, those of system headers in front, an empty line between the groups if
there are both, and the same lines for the parts in any order. A section that keeps the remarks
repeats no line, and the operands of a group stand in order. A section without them repeats a line
exactly for an operand that is asked for with the remark and without it, and is in order exactly if
no operand with the remark is overtaken by one that goes on from it. -/
theorem include_lines (a : Assembly) (s : IncludeSection) :
    ∃ system other : List String,
      Layout.includeLines a.dictionary s.name =
          system.map includeLine ++ (if system ≠ [] ∧ other ≠ [] then [""] else []) ++
            other.map includeLine ∧
        (∀ operand ∈ system, Text.startsWith "<" operand = true) ∧
        (∀ operand ∈ other, Text.startsWith "<" operand = false) ∧
        (∀ operand, operand ∈ system ∨ operand ∈ other ↔
          operand ∉ s.dropped a ∧ ∃ asked, a.Asks s.channels asked ∧ operand = s.shown asked) ∧
        (s.plain = false →
          ((Layout.includeLines a.dictionary s.name).filter fun line => line ≠ "").Nodup ∧
            system.Pairwise (· < ·) ∧ other.Pairwise (· < ·)) ∧
        (s.plain = true →
          (((Layout.includeLines a.dictionary s.name).filter fun line => line ≠ "").Nodup ↔
              ∀ operand, a.Asks s.channels operand →
                a.Asks s.channels (operand ++ exportRemark) →
                  (∀ front, operand ≠ front ++ exportRemark) → operand ∈ s.dropped a) ∧
            (system.Pairwise (· < ·) ∧ other.Pairwise (· < ·) ↔
              ∀ operand longer, ¬ a.Overtaken s operand longer)) ∧
        ∀ parts : List Part, parts.Perm a.parts →
          Layout.includeLines ({ a with parts } : Assembly).dictionary s.name =
            Layout.includeLines a.dictionary s.name := by
  have hlines := includeLines_section a s
  refine ⟨a.group s true, a.group s false, hlines.trans (grouped_listed a s),
    ?_, ?_, ?_, ?_, ?_, ?_⟩
  · exact fun operand h => (mem_group_iff.1 h).2
  · exact fun operand h => (mem_group_iff.1 h).2
  · intro operand
    rw [← mem_listed_iff, mem_group_iff, mem_group_iff]
    cases Text.startsWith "<" operand <;> simp
  · intro hplain
    rw [hlines, nodup_lines_iff]
    exact ⟨nodup_listed hplain, pairwise_groups hplain⟩
  · intro hplain
    rw [hlines, nodup_lines_iff]
    exact ⟨nodup_listed_iff hplain, pairwise_groups_iff_not_overtaken hplain⟩
  · intro parts hparts
    rw [includeLines_section, includeLines_section, listed_of_perm hparts]

/-- An operand that is listed twice without the remark. -/
example : grouped (["\"b.h\"", "\"b.h\"" ++ exportRemark].map withoutRemark) =
    ["#include \"b.h\"", "#include \"b.h\""] := by decide +kernel

end Assembly

end FluentGen
