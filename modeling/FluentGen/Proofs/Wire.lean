import FluentGen.Wire

/-!
The grammar of the binary form, beside the reader. Records are spelled one after the other, so what
two messages spell together is what each of them spells. The reader accepts exactly what is spelled:
each part of a record is read from the front of the bytes, whatever stands behind it, and takes one
byte at least, so that the number of bytes is fuel enough.
-/

namespace FluentGen.Wire

section Front

/-- The reader reads these bytes as a value, whatever stands behind them. -/
def Reads {α : Type} (read : List UInt8 → Option (α × List UInt8)) (front : List UInt8) (a : α) :
    Prop :=
  ∀ more, read (front ++ more) = some (a, more)

/-- The bytes are the head of a record with this number and this form of payload. -/
def IsHead (front : List UInt8) (number form : Nat) : Prop :=
  ∀ more, head? (front ++ more) = some (number, form, more)

variable {bytes rest : List UInt8} {n : Nat}

theorem exists_reads_varint? {places : Nat} (h : varint? places bytes = some (n, rest)) :
    ∃ front, bytes = front ++ rest ∧ Reads (varint? places) front n := by
  induction places generalizing bytes n with
  | zero => cases h
  | succ places ih =>
    cases bytes with
    | nil => cases h
    | cons b bytes =>
      rw [varint?] at h
      split at h
      · next hlast =>
        cases h
        refine ⟨[b], rfl, fun more => ?_⟩
        rw [List.singleton_append, varint?, if_pos hlast]
      · next hmore =>
        simp only [Option.bind_eq_bind, Option.bind_eq_some_iff] at h
        obtain ⟨⟨high, behind⟩, hhigh, heq⟩ := h
        cases heq
        obtain ⟨front, rfl, hreads⟩ := ih hhigh
        refine ⟨b :: front, rfl, fun more => ?_⟩
        rw [List.cons_append, varint?, if_neg hmore, hreads more]
        rfl

theorem exists_reads_number? (h : number? bytes = some (n, rest)) :
    ∃ front, bytes = front ++ rest ∧ Reads number? front n := by
  simp only [number?, Option.bind_eq_bind, Option.bind_eq_some_iff] at h
  obtain ⟨⟨m, behind⟩, hm, heq⟩ := h
  cases heq
  obtain ⟨front, rfl, hreads⟩ := exists_reads_varint? hm
  refine ⟨front, rfl, fun more => ?_⟩
  rw [number?, hreads more]
  rfl

theorem exists_reads_take? {content : List UInt8} (h : take? n bytes = some (content, rest)) :
    ∃ front, bytes = front ++ rest ∧ Reads (take? n) front content := by
  obtain ⟨hlength, heq⟩ := Option.ite_none_right_eq_some.1 h
  cases heq
  refine ⟨bytes.take n, (List.take_append_drop n bytes).symm, fun more => ?_⟩
  have htaken : (bytes.take n).length = n := List.length_take_of_le hlength
  rw [take?, if_pos (by rw [List.length_append, htaken]; omega), List.take_left' htaken,
    List.drop_left' htaken]

theorem exists_reads_delimited? {content : List UInt8}
    (h : delimited? bytes = some (content, rest)) :
    ∃ front, bytes = front ++ rest ∧ Reads delimited? front content := by
  simp only [delimited?, Option.bind_eq_bind, Option.bind_eq_some_iff] at h
  obtain ⟨⟨n, behind⟩, hn, htake⟩ := h
  dsimp only at htake
  split at htake
  · cases htake
  · next hsmall =>
    obtain ⟨front, rfl, hreads⟩ := exists_reads_varint? hn
    obtain ⟨inside, rfl, htaken⟩ := exists_reads_take? htake
    refine ⟨front ++ inside, (List.append_assoc _ _ _).symm, fun more => ?_⟩
    rw [List.append_assoc, delimited?, hreads]
    simp [hsmall, htaken more]

theorem exists_isHead {number form : Nat} (h : head? bytes = some (number, form, rest)) :
    ∃ front, bytes = front ++ rest ∧ IsHead front number form := by
  simp only [head?, Option.bind_eq_bind, Option.bind_eq_some_iff] at h
  obtain ⟨⟨tag, behind⟩, htag, heq⟩ := h
  dsimp only at heq
  split at heq
  · cases heq
  · next hallowed =>
    cases heq
    obtain ⟨front, rfl, hreads⟩ := exists_reads_varint? htag
    refine ⟨front, rfl, fun more => ?_⟩
    rw [head?, hreads more]
    exact if_neg hallowed

theorem IsHead.ne_nil {front : List UInt8} {number form : Nat} (h : IsHead front number form) :
    front ≠ [] := by
  rintro rfl
  cases h []

end Front

section Payloads

/-- Reads a payload that is no group. -/
def plain? (form : Nat) (bytes : List UInt8) : Option (Payload × List UInt8) :=
  if form = 0 then (number? bytes).map fun r => (.varint r.1, r.2)
  else if form = 1 then (take? 8 bytes).map fun r => (.fixed64, r.2)
  else if form = 2 then (delimited? bytes).map fun r => (.bytes r.1, r.2)
  else if form = 5 then (take? 4 bytes).map fun r => (.fixed32, r.2)
  else none

/-- Reads a payload; the contents of a group are read to its end and dropped. -/
def payload? (fuel depth number form : Nat) (bytes : List UInt8) :
    Option (Payload × List UInt8) :=
  if form = 3 then
    match depth with
    | 0 => none
    | depth + 1 => (readRecords fuel depth (some number) bytes).map fun r => (.group, r.2)
  else plain? form bytes

theorem exists_reads_map {α : Type} {read : List UInt8 → Option (α × List UInt8)}
    (hread : ∀ {bytes a rest}, read bytes = some (a, rest) →
      ∃ front, bytes = front ++ rest ∧ Reads read front a)
    (f : α → Payload) {bytes rest : List UInt8} {payload : Payload}
    (h : ((read bytes).map fun r => (f r.1, r.2)) = some (payload, rest)) :
    ∃ front, bytes = front ++ rest ∧
      Reads (fun bytes => (read bytes).map fun r => (f r.1, r.2)) front payload := by
  obtain ⟨⟨a, behind⟩, ha, heq⟩ := Option.map_eq_some_iff.1 h
  cases heq
  obtain ⟨front, hfront, hreads⟩ := hread ha
  refine ⟨front, hfront, fun more => ?_⟩
  dsimp only
  rw [hreads more]
  rfl

theorem exists_reads_plain? {form : Nat} {bytes rest : List UInt8} {payload : Payload}
    (h : plain? form bytes = some (payload, rest)) :
    ∃ front, bytes = front ++ rest ∧ Reads (plain? form) front payload := by
  unfold plain? at h
  split at h
  · next hform =>
    subst hform
    exact exists_reads_map exists_reads_number? .varint h
  · split at h
    · next hform =>
      subst hform
      exact exists_reads_map exists_reads_take? (fun _ => .fixed64) h
    · split at h
      · next hform =>
        subst hform
        exact exists_reads_map exists_reads_delimited? .bytes h
      · split at h
        · next hform =>
          subst hform
          exact exists_reads_map exists_reads_take? (fun _ => .fixed32) h
        · cases h

theorem payload?_of_reads {form : Nat} {body : List UInt8} {payload : Payload}
    (h : Reads (plain? form) body payload) (fuel depth number : Nat) (more : List UInt8) :
    payload? fuel depth number form (body ++ more) = some (payload, more) := by
  have hform : form ≠ 3 := by
    rintro rfl
    cases h []
  unfold payload?
  rw [if_neg hform, h more]

/-- What the reader does at the head of a record. -/
theorem readRecords_succ (fuel depth : Nat) (group : Option Nat) {bytes : List UInt8}
    (hbytes : bytes ≠ []) :
    readRecords (fuel + 1) depth group bytes =
      (head? bytes).bind fun head =>
        if head.2.1 = 4 then if group = some head.1 then some ([], head.2.2) else none
        else
          (payload? fuel depth head.1 head.2.1 head.2.2).bind fun r =>
            (readRecords fuel depth group r.2).bind fun s => some (⟨head.1, r.1⟩ :: s.1, s.2) := by
  rw [readRecords]
  · cases head? bytes with
    | none => rfl
    | some head =>
      obtain ⟨number, form, rest⟩ := head
      simp only [Option.bind_eq_bind, Option.bind_some]
      by_cases hend : form = 4
      · simp only [if_pos hend]
        rfl
      · simp only [if_neg hend, payload?, plain?]
        by_cases hnumber : form = 0
        · subst hnumber
          cases number? rest <;> rfl
        by_cases hfixed64 : form = 1
        · subst hfixed64
          cases take? 8 rest <;> rfl
        by_cases hbytes : form = 2
        · subst hbytes
          cases delimited? rest <;> rfl
        by_cases hgroup : form = 3
        · subst hgroup
          cases depth with
          | zero => rfl
          | succ depth =>
            cases hinside : readRecords fuel depth (some number) rest <;> simp [hinside]
        by_cases hfixed32 : form = 5
        · subst hfixed32
          cases take? 4 rest <;> rfl
        simp only [hnumber, hfixed64, hbytes, hgroup, hfixed32, if_false]
        rfl
  · intro hnil
    exact hbytes hnil

end Payloads

section Grammar

/-- The records that bytes spell: up to the end of the group with the given number, or, without one,
up to the last byte. Groups are nested no deeper than allowed, and their records are dropped. -/
inductive Spells : (depth : Nat) → (group : Option Nat) → List UInt8 → List Record → Prop where
  | done {depth : Nat} : Spells depth none [] []
  | close {depth number : Nat} {head : List UInt8} (ends : IsHead head number 4) :
      Spells depth (some number) head []
  | plain {depth number form : Nat} {group : Option Nat} {head body more : List UInt8}
      {payload : Payload} {records : List Record} (begins : IsHead head number form)
      (goesOn : form ≠ 4) (holds : Reads (plain? form) body payload)
      (others : Spells depth group more records) :
      Spells depth group (head ++ body ++ more) (⟨number, payload⟩ :: records)
  | group {depth number : Nat} {group : Option Nat} {head body more : List UInt8}
      {dropped records : List Record} (begins : IsHead head number 3)
      (inside : Spells depth (some number) body dropped)
      (others : Spells (depth + 1) group more records) :
      Spells (depth + 1) group (head ++ body ++ more) (⟨number, .group⟩ :: records)

/-- What has been read is spelled by the bytes in front of what is left. -/
theorem exists_spells {fuel depth : Nat} {group : Option Nat} {bytes rest : List UInt8}
    {records : List Record} (h : readRecords fuel depth group bytes = some (records, rest)) :
    ∃ front, bytes = front ++ rest ∧ Spells depth group front records ∧
      (group = none → rest = []) := by
  -- The contents of a group and the records behind it are both read with one less of the fuel.
  induction fuel generalizing depth group bytes records rest with
  | zero => cases h
  | succ fuel ih =>
    by_cases hbytes : bytes = []
    · subst hbytes
      cases group with
      | none =>
        cases h
        exact ⟨[], rfl, .done, fun _ => rfl⟩
      | some number => cases h
    · rw [readRecords_succ fuel depth group hbytes] at h
      obtain ⟨⟨number, form, after⟩, hhead, hstep⟩ := Option.bind_eq_some_iff.1 h
      obtain ⟨head, rfl, hbegins⟩ := exists_isHead hhead
      split at hstep
      · next hend =>
        obtain ⟨rfl, heq⟩ := Option.ite_none_right_eq_some.1 hstep
        cases heq
        subst hend
        exact ⟨head, rfl, .close hbegins, fun hnone => by cases hnone⟩
      · next hgoes =>
        obtain ⟨⟨payload, behind⟩, hpayload, hrest⟩ := Option.bind_eq_some_iff.1 hstep
        obtain ⟨⟨others, last⟩, hothers, heq⟩ := Option.bind_eq_some_iff.1 hrest
        cases heq
        obtain ⟨more, rfl, hmore, hlast⟩ := ih hothers
        unfold payload? at hpayload
        split at hpayload
        · next hform =>
          subst hform
          cases depth with
          | zero => cases hpayload
          | succ depth =>
            obtain ⟨⟨dropped, closed⟩, hinside, heq⟩ := Option.map_eq_some_iff.1 hpayload
            cases heq
            obtain ⟨body, rfl, hbody, -⟩ := ih hinside
            exact ⟨head ++ body ++ more, by simp, .group hbegins hbody hmore, hlast⟩
        · obtain ⟨body, rfl, hbody⟩ := exists_reads_plain? hpayload
          exact ⟨head ++ body ++ more, by simp, .plain hbegins hgoes hbody hmore, hlast⟩

/-- What bytes spell is read from them, and whatever stands behind the end of a group is left. -/
theorem Spells.read {depth : Nat} {group : Option Nat} {front : List UInt8} {records : List Record}
    (h : Spells depth group front records) {fuel : Nat} (hfuel : front.length ≤ fuel)
    (more : List UInt8) (hmore : group = none → more = []) :
    readRecords (fuel + 1) depth group (front ++ more) = some (records, more) := by
  -- The head of a record is a byte at least and pays for the step that reads the record.
  induction h generalizing fuel more with
  | done =>
    rw [hmore rfl]
    rfl
  | @close depth number head ends =>
    rw [readRecords_succ fuel depth _ (by simp [ends.ne_nil]), ends more]
    simp
  | @plain depth number form group head body behind payload records begins goesOn holds others ih =>
    have hhead := List.length_pos_iff.2 begins.ne_nil
    simp only [List.length_append] at hfuel
    obtain ⟨fuel, rfl⟩ := Nat.exists_eq_succ_of_ne_zero (by omega : fuel ≠ 0)
    rw [List.append_assoc, List.append_assoc, readRecords_succ _ depth group
      (by simp [begins.ne_nil]), begins _]
    simp only [Option.bind_some, if_neg goesOn, payload?_of_reads holds]
    rw [ih (by omega) more hmore]
    rfl
  | @group depth number group head body behind dropped records begins inside others ihInside ih =>
    have hhead := List.length_pos_iff.2 begins.ne_nil
    simp only [List.length_append] at hfuel
    obtain ⟨fuel, rfl⟩ := Nat.exists_eq_succ_of_ne_zero (by omega : fuel ≠ 0)
    rw [List.append_assoc, List.append_assoc, readRecords_succ _ _ group
      (by simp [begins.ne_nil]), begins _]
    have hgroup : payload? (fuel + 1) (depth + 1) number 3 (body ++ (behind ++ more)) =
        some (.group, behind ++ more) := by
      rw [payload?, if_pos rfl, ihInside (by omega) _ (fun hnone => by cases hnone)]
      rfl
    simp only [Option.bind_some, Nat.reduceEqDiff, if_false, hgroup]
    rw [ih (by omega) more hmore]
    rfl

/-- The reader accepts exactly the bytes that spell records, and gives these records. -/
theorem records?_eq_some_iff {depth : Nat} {bytes : List UInt8} {records : List Record} :
    records? depth bytes = some records ↔ Spells depth none bytes records := by
  constructor
  · intro h
    obtain ⟨⟨read, rest⟩, hread, rfl⟩ := Option.map_eq_some_iff.1 h
    obtain ⟨front, rfl, hspells, hrest⟩ := exists_spells hread
    rwa [hrest rfl, List.append_nil]
  · intro h
    have hread := h.read (Nat.le_refl _) [] (fun _ => rfl)
    rw [List.append_nil] at hread
    rw [records?, hread]
    rfl

/-- Messages that stand one behind the other spell the records of both. -/
theorem Spells.append {depth : Nat} {first second : List UInt8} {records others : List Record}
    (hfirst : Spells depth none first records) (hsecond : Spells depth none second others) :
    Spells depth none (first ++ second) (records ++ others) := by
  generalize hgroup : (none : Option Nat) = group at hfirst
  induction hfirst with
  | done => exact hsecond
  | close => cases hgroup
  | plain begins goesOn holds _ ih =>
    rw [List.append_assoc]
    exact .plain begins goesOn holds (ih hsecond hgroup)
  | group begins inside _ _ ih =>
    rw [List.append_assoc]
    exact .group begins inside (ih hsecond hgroup)

theorem records?_append {depth : Nat} {first second : List UInt8} {records others : List Record}
    (hfirst : records? depth first = some records) (hsecond : records? depth second = some others) :
    records? depth (first ++ second) = some (records ++ others) := by
  rw [records?_eq_some_iff] at *
  exact hfirst.append hsecond

theorem allBytes_append (number : Nat) (records others : List Record) :
    allBytes number (records ++ others) = allBytes number records ++ allBytes number others := by
  rw [allBytes, List.filter_append, List.filterMap_append]
  rfl

end Grammar

end FluentGen.Wire
