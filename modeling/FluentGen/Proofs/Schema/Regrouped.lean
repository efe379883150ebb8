import FluentGen.Proofs.Schema.Addresses
import FluentGen.Proofs.Schema.Holds

/-!
A schema in which some message fields are groups. Loading takes a group for a message: files that
differ in nothing but this are loaded with the same failures to schemas that differ in nothing but
this, and a look-up finds in both what stands in the same place.
-/

namespace FluentGen

variable {ε α β γ δ : Type}

/-- The same failure, or results that correspond. -/
inductive Corresponds (R : α → β → Prop) : Except ε α → Except ε β → Prop
  | error (e : ε) : Corresponds R (.error e) (.error e)
  | ok {a : α} {b : β} (h : R a b) : Corresponds R (.ok a) (.ok b)

namespace Corresponds

variable {R : α → β → Prop} {S : γ → δ → Prop}

theorem bind {x : Except ε α} {y : Except ε β} {f : α → Except ε γ} {g : β → Except ε δ}
    (h : Corresponds R x y) (hnext : ∀ a b, R a b → Corresponds S (f a) (g b)) :
    Corresponds S (x >>= f) (y >>= g) := by
  cases h with
  | error e => exact .error e
  | ok h => exact hnext _ _ h

theorem mapM {f : α → Except ε γ} {g : β → Except ε δ} {items : List α} {others : List β}
    (h : List.Forall₂ R items others) (hstep : ∀ a b, R a b → Corresponds S (f a) (g b)) :
    Corresponds (List.Forall₂ S) (items.mapM f) (others.mapM g) := by
  induction h with
  | nil => exact .ok .nil
  | cons hfirst _ ih =>
    rw [List.mapM_cons, List.mapM_cons]
    exact (hstep _ _ hfirst).bind fun _ _ hhead => ih.bind fun _ _ htail => .ok (.cons hhead htail)

end Corresponds

theorem rel_find? {R : α → β → Prop} {p : α → Bool} {q : β → Bool} {items : List α}
    {others : List β} (h : List.Forall₂ R items others) (hiff : ∀ a b, R a b → p a = q b) :
    Option.Rel R (items.find? p) (others.find? q) := by
  induction h with
  | nil => exact .none
  | cons hfirst _ ih =>
    rw [List.find?_cons, List.find?_cons, hiff _ _ hfirst]
    split
    · exact .some hfirst
    · exact ih

theorem rel_takeWhile_dropWhile {R : α → β → Prop} {p : α → Bool} {q : β → Bool} {items : List α}
    {others : List β} (h : List.Forall₂ R items others) (hiff : ∀ a b, R a b → p a = q b) :
    List.Forall₂ R (items.takeWhile p) (others.takeWhile q) ∧
      List.Forall₂ R (items.dropWhile p) (others.dropWhile q) := by
  induction h with
  | nil => exact ⟨.nil, .nil⟩
  | @cons a b items others hfirst hrest ih =>
    cases hp : p a with
    | false =>
      have hq := (hiff a b hfirst).symm.trans hp
      simp only [List.takeWhile_cons, List.dropWhile_cons, hp, hq]
      exact ⟨.nil, .cons hfirst hrest⟩
    | true =>
      have hq := (hiff a b hfirst).symm.trans hp
      simp only [List.takeWhile_cons, List.dropWhile_cons, hp, hq]
      exact ⟨.cons hfirst ih.1, ih.2⟩

namespace Schema

/-- The same kind, or a group in the place of a message. -/
def FieldKind.Regrouped (kind kind' : FieldKind) : Prop :=
  kind' = kind ∨ kind = .message ∧ kind' = .group

def FieldDecl.Regrouped (f f' : FieldDecl) : Prop :=
  ∃ kind, f.kind.Regrouped kind ∧ f' = { f with kind }

/-- Declarations of a message that differ in the kinds of fields, of its own or of messages that it
contains. -/
inductive MessageDecl.Regrouped : MessageDecl → MessageDecl → Prop
  | mk {name : String} {fields fields' : List FieldDecl} {nested nested' : List MessageDecl}
      {enums : List EnumDecl} {isMapEntry : Bool}
      {options : Except Failure (Option MessageOptions)}
      (hfields : List.Forall₂ FieldDecl.Regrouped fields fields')
      (hnested : List.Forall₂ MessageDecl.Regrouped nested nested') :
      Regrouped ⟨name, fields, nested, enums, isMapEntry, options⟩
        ⟨name, fields', nested', enums, isMapEntry, options⟩

def FileDecl.Regrouped (file file' : FileDecl) : Prop :=
  ∃ messages, List.Forall₂ MessageDecl.Regrouped file.messages messages ∧
    file' = { file with messages }

def Field.Regrouped (f f' : Field) : Prop :=
  ∃ kind, f.kind.Regrouped kind ∧ f' = { f with kind }

def Message.Regrouped (m m' : Message) : Prop :=
  ∃ fields, List.Forall₂ Field.Regrouped m.fields fields ∧ m' = { m with fields }

/-- Schemas that differ in nothing but message fields that are groups in the second. -/
def Pool.Regrouped (pool pool' : Pool) : Prop :=
  ∃ messages, List.Forall₂ Message.Regrouped pool.messages messages ∧
    pool' = { pool with messages }

section Fields

theorem Field.Regrouped.kind_eq {f f' : Field} (h : f.Regrouped f') (hkind : f'.kind = .message) :
    f.kind = .message := by
  obtain ⟨kind, hsame | ⟨hmessage, -⟩, rfl⟩ := h
  · exact hsame ▸ hkind
  · exact hmessage

theorem Message.Regrouped.address {m m' : Message} (h : m.Regrouped m') :
    m'.address = m.address := by
  obtain ⟨fields, -, rfl⟩ := h
  rfl

theorem Message.Regrouped.isMapEntry {m m' : Message} (h : m.Regrouped m') :
    m'.isMapEntry = m.isMapEntry := by
  obtain ⟨fields, -, rfl⟩ := h
  rfl

theorem Message.Regrouped.fields {m m' : Message} (h : m.Regrouped m') :
    List.Forall₂ Field.Regrouped m.fields m'.fields := by
  obtain ⟨fields, hfields, rfl⟩ := h
  exact hfields

theorem Message.Regrouped.rel_field? {m m' : Message} (h : m.Regrouped m') (name : String) :
    Option.Rel Field.Regrouped (m.field? name) (m'.field? name) := by
  apply rel_find? h.fields
  rintro f _ ⟨kind, -, rfl⟩
  rfl

theorem Pool.Regrouped.messages {pool pool' : Pool} (h : pool.Regrouped pool') :
    List.Forall₂ Message.Regrouped pool.messages pool'.messages := by
  obtain ⟨messages, hmessages, rfl⟩ := h
  exact hmessages

end Fields

/-!
Loading one schema and the other. Each step of one goes along with the same step of the other.
-/

section Loading

theorem FieldDecl.Regrouped.toField {f f' : FieldDecl} (h : f.Regrouped f') (container : Address)
    (scope : String) :
    Corresponds Field.Regrouped (f.toField container scope) (f'.toField container scope) := by
  obtain ⟨kind, hkind, rfl⟩ := h
  unfold FieldDecl.toField
  cases f.annotations with
  | error failure => exact .error failure
  | ok annotations => exact .ok ⟨kind, hkind, rfl⟩

-- The induction follows the declarations, as that of the loader does.
mutual

theorem MessageDecl.Regrouped.toMessages (s : Surroundings) (position : Nat) :
    ∀ {d d' : MessageDecl}, d.Regrouped d' →
      Corresponds (List.Forall₂ Message.Regrouped) (d.toMessages s position)
        (d'.toMessages s position)
  | ⟨name, fields, nested, enums, isMapEntry, options⟩, _, .mk hfields hnested => by
    rw [MessageDecl.toMessages, MessageDecl.toMessages]
    cases options with
    | error failure => exact .error failure
    | ok options =>
      refine (toMessagesList_regrouped (s.inside position name) 0 hnested).bind ?_
      intro inner inner' hinner
      have hloaded := Corresponds.mapM hfields fun f f' hf =>
        hf.toField ⟨(s.inside position name).file, (s.inside position name).path⟩
          (s.inside position name).scope
      refine hloaded.bind fun loaded loaded' hboth => .ok ?_
      exact .cons ⟨loaded', hboth, rfl⟩ hinner

theorem toMessagesList_regrouped (s : Surroundings) (position : Nat) :
    ∀ {ds ds' : List MessageDecl}, List.Forall₂ MessageDecl.Regrouped ds ds' →
      Corresponds (List.Forall₂ Message.Regrouped) (toMessagesList s position ds)
        (toMessagesList s position ds')
  | [], _, .nil => .ok .nil
  | d :: ds, _, .cons hfirst hrest => by
    rw [toMessagesList, toMessagesList]
    refine (hfirst.toMessages s position).bind fun first first' hhead => ?_
    refine (toMessagesList_regrouped s (position + 1) hrest).bind fun rest rest' htail => .ok ?_
    exact List.rel_append hhead htail

end

namespace Pool

variable {pool pool' : Pool}

theorem Regrouped.file? (h : pool.Regrouped pool') (name : String) :
    pool'.file? name = pool.file? name := by
  obtain ⟨messages, -, rfl⟩ := h
  rfl

theorem Regrouped.declare (h : pool.Regrouped pool') {file file' : FileDecl}
    (hfile : file.Regrouped file') :
    Corresponds Pool.Regrouped (pool.declare file) (pool'.declare file') := by
  obtain ⟨old, hold, rfl⟩ := h
  obtain ⟨decls, hdecls, rfl⟩ := hfile
  unfold Pool.declare
  refine (toMessagesList_regrouped _ 0 hdecls).bind fun messages messages' hnew => .ok ?_
  have henums : messages'.flatMap (·.enums) = messages.flatMap (·.enums) := by
    rw [List.flatMap_def, List.flatMap_def]
    congr 1
    refine (map_eq_map_of_forall₂ hnew ?_).symm
    rintro m _ ⟨fields, -, rfl⟩
    rfl
  refine ⟨old ++ messages', List.rel_append hold hnew, ?_⟩
  rw [henums]

theorem Regrouped.declareAll {files files' : List FileDecl}
    (hfiles : List.Forall₂ FileDecl.Regrouped files files') (h : pool.Regrouped pool') :
    (pool'.declareAll files').1 = (pool.declareAll files).1 ∧
      Corresponds Pool.Regrouped (pool.declareAll files).2 (pool'.declareAll files').2 := by
  induction hfiles generalizing pool pool' with
  | nil => exact ⟨rfl, .ok h⟩
  | @cons file file' rest rest' hfile _ ih =>
    have hname : file'.name = file.name := by
      obtain ⟨messages, -, rfl⟩ := hfile
      rfl
    rw [Pool.declareAll, Pool.declareAll, hname, h.file?]
    split
    · obtain ⟨hlogs, hresult⟩ := ih h
      refine ⟨?_, hresult⟩
      exact congrArg (⟨Log.debug, "Skipping duplicate file " ++ file.name⟩ :: ·) hlogs
    · have hdeclared := h.declare hfile
      generalize pool.declare file = declared at hdeclared
      generalize pool'.declare file' = declared' at hdeclared
      cases hdeclared with
      | error failure => exact ⟨rfl, .error failure⟩
      | ok hnext => exact ih hnext

theorem Regrouped.rel_messageNamed? (h : pool.Regrouped pool') (name : String) :
    Option.Rel Message.Regrouped (pool.messageNamed? name) (pool'.messageNamed? name) := by
  apply rel_find? (List.forall₂_reverse_iff.2 h.messages)
  rintro m _ ⟨fields, -, rfl⟩
  rfl

/-- A group is looked up like a message. -/
theorem resolveField_of_message {f : Field} (h : f.kind = .message ∨ f.kind = .group) :
    pool.resolveField f =
      match pool.messageNamed? f.typeName with
      | some m => .ok { f with target := .message m.address }
      | none => .error (.unknownMessageType f.typeName f.fullName) := by
  unfold Pool.resolveField
  split
  · rfl
  · rfl
  · next henum => simp [henum] at h
  · next hmessage hgroup _ => exact (h.elim hmessage hgroup).elim

theorem Regrouped.resolveField_message (h : pool.Regrouped pool') {f f' : Field}
    (hf : f.Regrouped f') (hkind : f.kind = .message ∨ f.kind = .group) :
    Corresponds Field.Regrouped (pool.resolveField f) (pool'.resolveField f') := by
  have hnamed := h.rel_messageNamed? f.typeName
  have hkind' : f'.kind = .message ∨ f'.kind = .group := by
    obtain ⟨kind, rfl | ⟨-, rfl⟩, rfl⟩ := hf
    · exact hkind
    · exact Or.inr rfl
  rw [resolveField_of_message hkind, resolveField_of_message hkind']
  obtain ⟨kind, hregrouped, rfl⟩ := hf
  dsimp only
  generalize pool.messageNamed? f.typeName = found at hnamed
  generalize pool'.messageNamed? f.typeName = found' at hnamed
  cases hnamed with
  | none => exact .error _
  | some hm => exact .ok ⟨kind, hregrouped, by rw [hm.address]⟩

theorem Regrouped.resolveField (h : pool.Regrouped pool') {f f' : Field} (hf : f.Regrouped f') :
    Corresponds Field.Regrouped (pool.resolveField f) (pool'.resolveField f') := by
  by_cases hkind : f.kind = .message ∨ f.kind = .group
  · exact h.resolveField_message hf hkind
  · -- A field of another kind is the same in both schemas, and enums are.
    have hsame : f' = f := by
      obtain ⟨kind, rfl | ⟨hmessage, -⟩, rfl⟩ := hf
      · rfl
      · exact absurd (Or.inl hmessage) hkind
    have henums : ∀ name, pool'.enumNamed? name = pool.enumNamed? name := by
      obtain ⟨messages, -, rfl⟩ := h
      exact fun _ => rfl
    rw [hsame]
    unfold Pool.resolveField
    split
    · next hmessage => exact absurd (Or.inl hmessage) hkind
    · next hgroup => exact absurd (Or.inr hgroup) hkind
    · rw [henums]
      cases pool.enumNamed? f.typeName with
      | none => exact .error _
      | some type => exact .ok ⟨_, Or.inl rfl, rfl⟩
    · exact .ok ⟨_, Or.inl rfl, rfl⟩

theorem Regrouped.resolveMessage (h : pool.Regrouped pool') {m m' : Message}
    (hm : m.Regrouped m') :
    Corresponds Message.Regrouped (pool.resolveMessage m) (pool'.resolveMessage m') := by
  have hfields := Corresponds.mapM hm.fields fun f f' hf => h.resolveField hf
  obtain ⟨old, -, rfl⟩ := hm
  exact hfields.bind fun fields fields' hboth => .ok ⟨fields', hboth, rfl⟩

theorem rel_innerFirst {waiting waiting' messages messages' : List Message}
    (hwaiting : List.Forall₂ Message.Regrouped waiting waiting')
    (h : List.Forall₂ Message.Regrouped messages messages') :
    List.Forall₂ Message.Regrouped (innerFirst waiting messages)
      (innerFirst waiting' messages') := by
  induction h generalizing waiting waiting' with
  | nil => exact hwaiting
  | @cons m m' rest rest' hm _ ih =>
    have hinside : ∀ w w', w.Regrouped w' → (!m.isInside w) = (!m'.isInside w') := by
      intro w w' hw
      rw [Message.isInside, Message.isInside, hm.address, hw.address]
    obtain ⟨htake, hdrop⟩ := rel_takeWhile_dropWhile hwaiting hinside
    exact List.rel_append htake (ih (.cons hm hdrop))

theorem Regrouped.resolve (h : pool.Regrouped pool') :
    Corresponds Pool.Regrouped pool.resolve pool'.resolve := by
  have hresolve : ∀ m m', m.Regrouped m' →
      Corresponds Message.Regrouped (pool.resolveMessage m) (pool'.resolveMessage m') :=
    fun m m' hm => h.resolveMessage hm
  have hread := Corresponds.mapM (rel_innerFirst .nil h.messages) hresolve
  have hmessages := Corresponds.mapM h.messages hresolve
  obtain ⟨old, -, rfl⟩ := h
  refine hread.bind fun _ _ _ => ?_
  exact hmessages.bind fun messages messages' hboth => .ok ⟨messages', hboth, rfl⟩

/-- Whether its message fields are groups is nothing to the loading of a schema. -/
theorem load_regrouped {files files' : List FileDecl}
    (h : List.Forall₂ FileDecl.Regrouped files files') :
    (load files').1 = (load files).1 ∧
      Corresponds Pool.Regrouped (load files).2 (load files').2 := by
  have hempty : Pool.Regrouped {} {} := ⟨[], .nil, rfl⟩
  obtain ⟨hlogs, hdeclared⟩ := hempty.declareAll h
  exact ⟨hlogs, hdeclared.bind fun _ _ hboth => hboth.resolve⟩

end Pool

end Loading

/-!
What is found in one schema and in the other. The messages may be known to agree in more than in
`Message.Regrouped`; then so do those that are found.
-/

namespace Pool

/-- Schemas whose messages are regrouped in place, and agree in whatever else `R` says. -/
structure Matching (pool pool' : Pool) (R : Message → Message → Prop) : Prop where
  regrouped : ∀ m m', R m m' → m.Regrouped m'
  messages : List.Forall₂ R pool.messages pool'.messages

theorem Regrouped.matching {pool pool' : Pool} (h : pool.Regrouped pool') :
    pool.Matching pool' Message.Regrouped :=
  ⟨fun _ _ hm => hm, h.messages⟩

theorem exists_of_rel_some {α β : Type} {S : α → β → Prop} {o : Option α} {b : β}
    (h : Option.Rel S o (some b)) : ∃ a, o = some a ∧ S a b := by
  cases h with
  | some hab => exact ⟨_, rfl, hab⟩

namespace Matching

variable {pool pool' : Pool} {R : Message → Message → Prop} {f f' : Field}

theorem rel_message? (h : pool.Matching pool' R) (address : Address) :
    Option.Rel R (pool.message? address) (pool'.message? address) := by
  apply rel_find? h.messages
  intro m m' hm
  rw [(h.regrouped m m' hm).address]

theorem rel_targetMessage? (h : pool.Matching pool' R) (hf : f.Regrouped f') :
    Option.Rel R (pool.targetMessage? f) (pool'.targetMessage? f') := by
  obtain ⟨kind, -, rfl⟩ := hf
  unfold targetMessage?
  dsimp only
  split
  · exact h.rel_message? _
  · exact .none

theorem rel_mapEntry? (h : pool.Matching pool' R) (hf : f.Regrouped f') :
    Option.Rel R (pool.mapEntry? f) (pool'.mapEntry? f') := by
  have htarget := h.rel_targetMessage? hf
  unfold mapEntry?
  generalize pool.targetMessage? f = found at htarget
  generalize pool'.targetMessage? f' = found' at htarget
  cases htarget with
  | none => exact .none
  | @some m m' hm =>
    rw [Option.filter_some, Option.filter_some, (h.regrouped m m' hm).isMapEntry]
    split
    · exact .some hm
    · exact .none

theorem isMap_eq (h : pool.Matching pool' R) (hf : f.Regrouped f') :
    pool'.isMap f' = pool.isMap f := by
  have hentry := h.rel_mapEntry? hf
  unfold isMap
  generalize pool.mapEntry? f = found at hentry
  generalize pool'.mapEntry? f' = found' at hentry
  cases hentry with
  | none => rfl
  | some _ => rfl

theorem rel_mapValue? (h : pool.Matching pool' R) (hf : f.Regrouped f') :
    Option.Rel Field.Regrouped (pool.mapValue? f) (pool'.mapValue? f') := by
  have hentry := h.rel_mapEntry? hf
  unfold mapValue?
  generalize pool.mapEntry? f = found at hentry
  generalize pool'.mapEntry? f' = found' at hentry
  cases hentry with
  | none => exact .none
  | @some m m' hm => exact (h.regrouped m m' hm).rel_field? "value"

/-- What a field holds in the second schema it holds in the first, as often. -/
theorem exists_elementMessage? (h : pool.Matching pool' R) (hf : f.Regrouped f') {inner' : Message}
    {several : Bool} (helement : pool'.elementMessage? f' = some (inner', several)) :
    ∃ inner, R inner inner' ∧ pool.elementMessage? f = some (inner, several) := by
  have hmap := h.isMap_eq hf
  have hlabel : f'.isRepeated = f.isRepeated := by
    obtain ⟨kind, -, rfl⟩ := hf
    rfl
  obtain ⟨hkind, hform⟩ := elementMessage?_eq_some_iff.1 helement
  rw [hmap, hlabel] at hform
  rcases hform with ⟨hsingle, htarget, hseveral⟩ | ⟨hmaps, hseveral, value', hvalue, hvalueKind,
    htarget⟩
  · obtain ⟨inner, hinner, hboth⟩ := exists_of_rel_some (htarget ▸ h.rel_targetMessage? hf)
    exact ⟨inner, hboth,
      elementMessage?_eq_some_iff.2 ⟨hf.kind_eq hkind, Or.inl ⟨hsingle, hinner, hseveral⟩⟩⟩
  · obtain ⟨value, hfound, hvalues⟩ := exists_of_rel_some (hvalue ▸ h.rel_mapValue? hf)
    obtain ⟨inner, hinner, hboth⟩ := exists_of_rel_some (htarget ▸ h.rel_targetMessage? hvalues)
    exact ⟨inner, hboth, elementMessage?_eq_some_iff.2 ⟨hf.kind_eq hkind,
      Or.inr ⟨hmaps, hseveral, value, hfound, hvalues.kind_eq hvalueKind, hinner⟩⟩⟩

theorem rel_topLevel (h : pool.Matching pool' R) (file : String) :
    List.Forall₂ R (pool.topLevel file) (pool'.topLevel file) := by
  apply List.rel_filter _ h.messages
  intro m m' hm
  obtain ⟨fields, -, rfl⟩ := h.regrouped m m' hm
  exact Iff.rfl

theorem map_address_eq (h : pool.Matching pool' R) {messages messages' : List Message}
    (hmessages : List.Forall₂ R messages messages') :
    messages'.map (·.address) = messages.map (·.address) :=
  (map_eq_map_of_forall₂ hmessages fun m m' hm => (h.regrouped m m' hm).address.symm).symm

end Matching

end Pool

end Schema

end FluentGen
