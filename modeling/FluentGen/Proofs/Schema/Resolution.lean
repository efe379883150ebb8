import FluentGen.Proofs.Schema.Parts

/-!
Looking up the names that fields give. It succeeds exactly if all of them are declared, and then a
field refers to what is declared under its name. A name that is declared once is found wherever its
declaration stands, so the order of a schema does not matter.
-/

namespace FluentGen.Schema

/-- A field of a kind that refers to something by name gives a name that is declared. -/
def Refers (messages enums : List String) (kind : FieldKind) (name : String) : Prop :=
  match kind with
  | .message | .group => withoutLeadingDots name ∈ messages
  | .enum => withoutLeadingDots name ∈ enums
  | _ => True

section Lookups

variable {α κ : Type} [BEq κ] [LawfulBEq κ] {key : α → κ} {items others : List α} {sought : κ}

/-- Of items with different keys, the one that is found by a key is the one that has it. -/
theorem find?_eq_some_iff_of_nodup (hkeys : (items.map key).Nodup) {a : α} :
    items.find? (key · == sought) = some a ↔ a ∈ items ∧ key a = sought := by
  constructor
  · intro h
    have hfits := List.find?_some h
    exact ⟨List.mem_of_find?_eq_some h, beq_iff_eq.1 hfits⟩
  · rintro ⟨ha, hkey⟩
    obtain ⟨b, hb⟩ : ∃ b, items.find? (key · == sought) = some b := by
      rw [← Option.isSome_iff_exists, List.find?_isSome]
      exact ⟨a, ha, beq_iff_eq.2 hkey⟩
    have hfits := List.find?_some hb
    have hsame : key a = key b := hkey.trans (beq_iff_eq.1 hfits).symm
    rw [hb, List.inj_on_of_nodup_map hkeys ha (List.mem_of_find?_eq_some hb) hsame]

/-- Items with different keys are found by them in any order. -/
theorem find?_eq_of_perm (horder : items.Perm others) (hkeys : (items.map key).Nodup) :
    items.find? (key · == sought) = others.find? (key · == sought) := by
  have hkeys' : (others.map key).Nodup := (horder.map key).nodup_iff.1 hkeys
  apply Option.ext
  intro a
  rw [find?_eq_some_iff_of_nodup hkeys, find?_eq_some_iff_of_nodup hkeys', horder.mem_iff]

theorem exists_find?_reverse_iff :
    (∃ a, items.reverse.find? (key · == sought) = some a) ↔ sought ∈ items.map key := by
  rw [← Option.isSome_iff_exists, List.find?_isSome]
  simp

end Lookups

namespace Pool

section Rearranged

variable {p q : Pool}

theorem Rearranged.messageNamed? (h : p.Rearranged q) (hnames : (p.messages.map (·.fullName)).Nodup)
    (name : String) : p.messageNamed? name = q.messageNamed? name := by
  refine find?_eq_of_perm ?_ (by simpa using hnames)
  exact (List.reverse_perm _).trans (h.messages.trans (List.reverse_perm _).symm)

theorem Rearranged.enumNamed? (h : p.Rearranged q) (hnames : (p.enums.map (·.fullName)).Nodup)
    (name : String) : p.enumNamed? name = q.enumNamed? name := by
  refine find?_eq_of_perm ?_ (by simpa using hnames)
  exact (List.reverse_perm _).trans (h.enums.trans (List.reverse_perm _).symm)

theorem Rearranged.message? (h : p.Rearranged q) (hplaces : (p.messages.map (·.address)).Nodup)
    (address : Address) : p.message? address = q.message? address :=
  find?_eq_of_perm h.messages hplaces

end Rearranged

section Resolution

variable {pool next : Pool}

theorem resolveField_congr {p q : Pool} (hmessages : ∀ name, p.messageNamed? name = q.messageNamed? name)
    (henums : ∀ name, p.enumNamed? name = q.enumNamed? name) : p.resolveField = q.resolveField := by
  funext f
  simp only [resolveField, hmessages, henums]

theorem exists_resolveField_iff {f : Field} :
    (∃ g, pool.resolveField f = .ok g) ↔
      Refers (pool.messages.map (·.fullName)) (pool.enums.map (·.fullName)) f.kind f.typeName := by
  have hmessage : (∃ m, pool.messageNamed? f.typeName = some m) ↔
      withoutLeadingDots f.typeName ∈ pool.messages.map (·.fullName) := exists_find?_reverse_iff
  have henum : (∃ e, pool.enumNamed? f.typeName = some e) ↔
      withoutLeadingDots f.typeName ∈ pool.enums.map (·.fullName) := exists_find?_reverse_iff
  unfold resolveField Refers
  split
  · next hkind =>
    rw [hkind, ← hmessage]
    cases pool.messageNamed? f.typeName with
    | none => simp
    | some m => simp
  · next hkind =>
    rw [hkind, ← hmessage]
    cases pool.messageNamed? f.typeName with
    | none => simp
    | some m => simp
  · next hkind =>
    rw [hkind, ← henum]
    cases pool.enumNamed? f.typeName with
    | none => simp
    | some e => simp
  · simp

/-- A message whose fields are looked up is the same but for its fields. -/
theorem resolveMessage_eq_ok_iff {m m' : Message} :
    pool.resolveMessage m = .ok m' ↔
      ∃ fields, List.Forall₂ (fun f g => pool.resolveField f = .ok g) m.fields fields ∧
        m' = { m with fields } := by
  constructor
  · intro h
    obtain ⟨fields, hfields, h⟩ := exists_of_bind_eq_ok h
    cases h
    exact ⟨fields, mapM_eq_ok_iff.1 hfields, rfl⟩
  · rintro ⟨fields, hfields, rfl⟩
    rw [resolveMessage, mapM_eq_ok_iff.2 hfields]
    rfl

open scoped List in
/-- Reading order leaves no message out. -/
theorem innerFirst_perm (waiting messages : List Message) :
    innerFirst waiting messages ~ waiting ++ messages := by
  induction messages generalizing waiting with
  | nil => rw [innerFirst, List.append_nil]
  | cons m rest ih =>
    let ended := waiting.takeWhile (!m.isInside ·)
    let around := waiting.dropWhile (!m.isInside ·)
    calc
      innerFirst waiting (m :: rest) = ended ++ innerFirst (m :: around) rest := by rw [innerFirst]
      _ ~ ended ++ (m :: around ++ rest) := (ih _).append_left ended
      _ ~ m :: (ended ++ (around ++ rest)) := List.perm_middle
      _ = m :: (waiting ++ rest) := by rw [← List.append_assoc, List.takeWhile_append_dropWhile]
      _ ~ waiting ++ m :: rest := List.perm_middle.symm

theorem resolve_eq_ok_iff :
    pool.resolve = .ok next ↔
      ∃ messages, List.Forall₂ (fun m m' => pool.resolveMessage m = .ok m') pool.messages messages ∧
        next = { pool with messages } := by
  constructor
  · intro h
    obtain ⟨_, -, h⟩ := exists_of_bind_eq_ok h
    obtain ⟨messages, hmessages, h⟩ := exists_of_bind_eq_ok h
    cases h
    exact ⟨messages, mapM_eq_ok_iff.1 hmessages, rfl⟩
  · rintro ⟨messages, hmessages, rfl⟩
    have hall : ∃ results, pool.messages.mapM pool.resolveMessage = .ok results :=
      ⟨messages, mapM_eq_ok_iff.2 hmessages⟩
    obtain ⟨read, hread⟩ : ∃ results,
        (innerFirst [] pool.messages).mapM pool.resolveMessage = .ok results := by
      rw [exists_mapM_eq_ok_iff] at hall ⊢
      exact fun m hm => hall m ((innerFirst_perm [] pool.messages).mem_iff.1 hm)
    rw [resolve, hread, mapM_eq_ok_iff.2 hmessages]
    rfl

/-- All names can be looked up exactly if every field gives a name that is declared. -/
theorem exists_resolve_iff :
    (∃ next, pool.resolve = .ok next) ↔
      ∀ m ∈ pool.messages, ∀ f ∈ m.fields,
        Refers (pool.messages.map (·.fullName)) (pool.enums.map (·.fullName)) f.kind f.typeName := by
  have hmessage : ∀ m, (∃ m', pool.resolveMessage m = .ok m') ↔ ∀ f ∈ m.fields,
      Refers (pool.messages.map (·.fullName)) (pool.enums.map (·.fullName)) f.kind f.typeName := by
    intro m
    rw [← forall₂_congr fun f _ => exists_resolveField_iff, ← exists_mapM_eq_ok_iff]
    simp only [resolveMessage_eq_ok_iff, mapM_eq_ok_iff]
    exact ⟨fun ⟨_, fields, h, _⟩ => ⟨fields, h⟩, fun ⟨fields, h⟩ => ⟨_, fields, h, rfl⟩⟩
  rw [← forall₂_congr fun m _ => hmessage m, ← exists_mapM_eq_ok_iff]
  simp only [resolve_eq_ok_iff, mapM_eq_ok_iff]
  exact ⟨fun ⟨_, messages, h, _⟩ => ⟨messages, h⟩, fun ⟨messages, h⟩ => ⟨_, messages, h, rfl⟩⟩

/-- Looking up the names of the same schema in another order gives the same schema in another
order. -/
theorem Rearranged.resolve {p q p' : Pool} (h : p.Rearranged q)
    (hmessages : (p.messages.map (·.fullName)).Nodup) (henums : (p.enums.map (·.fullName)).Nodup)
    (hp : p.resolve = .ok p') : ∃ q', q.resolve = .ok q' ∧ p'.Rearranged q' := by
  obtain ⟨resolved, hresolved, rfl⟩ := resolve_eq_ok_iff.1 hp
  have hfields : p.resolveField = q.resolveField :=
    resolveField_congr (h.messageNamed? hmessages) (h.enumNamed? henums)
  have hsame : p.resolveMessage = q.resolveMessage := by
    funext m
    rw [resolveMessage, resolveMessage, hfields]
  rw [hsame] at hresolved
  obtain ⟨resolved', hresolved', horder⟩ := List.perm_comp_forall₂ h.messages.symm hresolved
  exact ⟨_, resolve_eq_ok_iff.2 ⟨resolved', hresolved', rfl⟩, h.files, horder.symm, h.enums⟩

end Resolution

section Targets

variable {pool next : Pool}

/-- A field refers to what is declared under the name that it gives, if its kind refers to anything
by name. -/
def Resolved (pool : Pool) (f : Field) : Prop :=
  match f.kind with
  | .message | .group =>
    ∃ m ∈ pool.messages, f.target = .message m.address ∧ m.fullName = withoutLeadingDots f.typeName
  | .enum => ∃ e ∈ pool.enums, f.target = .enum e ∧ e.fullName = withoutLeadingDots f.typeName
  | _ => f.target = .scalar

theorem mem_of_find?_reverse {α : Type} {name : α → String} {items : List α} {sought : String} {a : α}
    (h : items.reverse.find? (name · == sought) = some a) : a ∈ items ∧ name a = sought := by
  have hfits := List.find?_some h
  exact ⟨List.mem_reverse.1 (List.mem_of_find?_eq_some h), beq_iff_eq.1 hfits⟩

theorem resolved_of_resolveField {f g : Field} (hnone : f.target = .scalar)
    (h : pool.resolveField f = .ok g) : pool.Resolved g := by
  unfold resolveField at h
  split at h
  · next hkind =>
    split at h
    · next m hm =>
      cases h
      obtain ⟨hmem, hname⟩ := mem_of_find?_reverse hm
      simp only [Resolved, hkind]
      exact ⟨m, hmem, rfl, hname⟩
    · cases h
  · next hkind =>
    split at h
    · next m hm =>
      cases h
      obtain ⟨hmem, hname⟩ := mem_of_find?_reverse hm
      simp only [Resolved, hkind]
      exact ⟨m, hmem, rfl, hname⟩
    · cases h
  · next hkind =>
    split at h
    · next e he =>
      cases h
      obtain ⟨hmem, hname⟩ := mem_of_find?_reverse he
      simp only [Resolved, hkind]
      exact ⟨e, hmem, rfl, hname⟩
    · cases h
  · next hmessage hgroup henum =>
    cases h
    unfold Resolved
    split
    · next hkind => exact absurd hkind hmessage
    · next hkind => exact absurd hkind hgroup
    · next hkind => exact absurd hkind henum
    · exact hnone

/-- Where a message stands and what it is called. -/
def station (m : Message) : Address × String :=
  (m.address, m.fullName)

theorem map_station_resolve (h : pool.resolve = .ok next) :
    next.messages.map station = pool.messages.map station ∧ next.enums = pool.enums := by
  obtain ⟨messages, hmessages, rfl⟩ := resolve_eq_ok_iff.1 h
  refine ⟨(map_eq_map_of_forall₂ hmessages ?_).symm, rfl⟩
  intro m m' hm
  obtain ⟨fields, -, rfl⟩ := resolveMessage_eq_ok_iff.1 hm
  rfl

/-- Whether a field is resolved is a matter of where messages stand and what they are called. -/
theorem Resolved.mono {f : Field} (h : pool.Resolved f)
    (hmessages : next.messages.map station = pool.messages.map station)
    (henums : next.enums = pool.enums) : next.Resolved f := by
  have hmoved : ∀ {name : String},
      (∃ m ∈ pool.messages, f.target = .message m.address ∧ m.fullName = name) →
        ∃ m ∈ next.messages, f.target = .message m.address ∧ m.fullName = name := by
    rintro name ⟨m, hm, htarget, hname⟩
    have hstation : station m ∈ next.messages.map station :=
      hmessages ▸ List.mem_map_of_mem hm
    obtain ⟨m', hm', heq⟩ := List.mem_map.1 hstation
    obtain ⟨haddress, hfullName⟩ := Prod.mk.inj heq
    exact ⟨m', hm', haddress ▸ htarget, hfullName.trans hname⟩
  unfold Resolved at h ⊢
  split at h
  · exact hmoved h
  · exact hmoved h
  · rw [henums]
    exact h
  · exact h

/-- After all names have been looked up, every field is resolved. -/
theorem resolved_of_resolve (hnone : ∀ m ∈ pool.messages, ∀ f ∈ m.fields, f.target = .scalar)
    (h : pool.resolve = .ok next) : ∀ m ∈ next.messages, ∀ f ∈ m.fields, next.Resolved f := by
  obtain ⟨hstations, henums⟩ := map_station_resolve h
  obtain ⟨messages, hmessages, rfl⟩ := resolve_eq_ok_iff.1 h
  intro m' hm' g hg
  obtain ⟨m, hm, hmm'⟩ := exists_left_of_forall₂ hmessages hm'
  obtain ⟨fields, hfields, rfl⟩ := resolveMessage_eq_ok_iff.1 hmm'
  obtain ⟨f, hf, hfg⟩ := exists_left_of_forall₂ hfields hg
  exact (resolved_of_resolveField (hnone m hm f hf) hfg).mono hstations henums

end Targets

end Pool

end FluentGen.Schema
