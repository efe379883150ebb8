import FluentGen.Options.Wire
import FluentGen.Proofs.KeyMap
import FluentGen.Proofs.Wire

/-!
Annotations in bytes that stand one behind the other. Their records follow each other, so the
annotations of a field do too. The annotation of a message is read onto the one before it, record by
record, and this is what laying the whole of it over the other one gives: no record asks what has
been read before it.
-/

namespace FluentGen

open Wire (Record)

theorem KeyMap.union_insert {α : Type} (below above : KeyMap α) (key : String) (value : α) :
    below.union (above.insert key value) = (below.union above).insert key value := by
  apply ext_get?
  intro sought
  rw [get?_union, get?_insert, get?_insert, get?_union]
  split
  · rfl
  · rfl

/-- A change of the state that each step passes on is passed on by all of them. -/
theorem foldlM_map {σ α : Type} {step : σ → α → Option σ} {g : σ → σ}
    (h : ∀ s a, step (g s) a = (step s a).map g) (items : List α) (s : σ) :
    items.foldlM step (g s) = (items.foldlM step s).map g := by
  induction items generalizing s with
  | nil => rfl
  | cons a rest ih =>
    rw [List.foldlM_cons, List.foldlM_cons, h]
    cases step s a with
    | none => rfl
    | some next => exact ih next

namespace MessageOptions

@[simp] theorem merge_empty (o : MessageOptions) : o.merge {} = o := by
  have hmap : o.typeMap.union {} = o.typeMap := rfl
  simp [merge, hmap]

/-- A record is read onto options in the same way whatever they are laid over. -/
theorem addRecord_merge (depth : Nat) (below above : MessageOptions) (r : Record) :
    addRecord depth (below.merge above) r = (addRecord depth above r).map below.merge := by
  obtain ⟨number, payload⟩ := r
  cases payload with
  | varint n =>
    simp only [addRecord, Option.map_some]
    split <;> simp [merge]
  | fixed64 => rfl
  | bytes content =>
    simp only [addRecord]
    split
    -- An entry of the type map has options inside, so two levels must be left for it.
    · cases depth with
      | zero => rfl
      | succ depth =>
        cases depth with
        | zero => rfl
        | succ depth =>
          simp only [Option.bind_eq_bind]
          cases MapEntry.ofBytes? (depth + 1) (FieldOptions.addBytes depth) {} content with
          | none => rfl
          | some entry => simp [merge, KeyMap.union_insert]
    · split <;> cases Text.ofUtf8? content <;> simp [merge]
  | group => rfl
  | fixed32 => rfl

/-- Bytes are read onto options in the same way whatever these are laid over. -/
theorem addBytes_merge (depth : Nat) (below above : MessageOptions) (bytes : List UInt8) :
    addBytes depth (below.merge above) bytes = (addBytes depth above bytes).map below.merge := by
  unfold addBytes
  cases Wire.records? depth bytes with
  | none => rfl
  | some records =>
    exact foldlM_map (fun above r => addRecord_merge depth below above r) records above

/-- Reading bytes onto options is laying what they say over the options. -/
theorem addBytes_eq (depth : Nat) (below : MessageOptions) (bytes : List UInt8) :
    addBytes depth below bytes = (addBytes depth {} bytes).map below.merge := by
  have h := addBytes_merge depth below {} bytes
  rwa [merge_empty] at h

end MessageOptions

namespace Annotations

/-- What two annotations of a message make together, the second one laid over the first. -/
def laidOver : (below above : Option MessageOptions) → Option MessageOptions :=
  Option.merge MessageOptions.merge

@[simp] theorem laidOver_none (below : Option MessageOptions) : laidOver below none = below :=
  Option.merge_none_right

@[simp] theorem none_laidOver (above : Option MessageOptions) : laidOver none above = above :=
  Option.merge_none_left

/-- Options that have no annotation with this number among them. -/
def IsForeign (number : Nat) (bytes : List UInt8) : Prop :=
  ∃ records, Wire.records? Wire.depthLimit bytes = some records ∧
    ∀ r ∈ records, r.number = number → r.payload.bytes? = none

section Field

variable {first second bytes : List UInt8}

theorem ofFieldBytes?_append {annotations others : List FieldOptions}
    (hfirst : ofFieldBytes? first = some annotations)
    (hsecond : ofFieldBytes? second = some others) :
    ofFieldBytes? (first ++ second) = some (annotations ++ others) := by
  obtain ⟨records, hrecords, hannotations⟩ := Option.bind_eq_some_iff.1 hfirst
  obtain ⟨more, hmore, hothers⟩ := Option.bind_eq_some_iff.1 hsecond
  rw [ofFieldBytes?, Wire.records?_append hrecords hmore]
  simp only [Option.bind_eq_bind, Option.bind_some, Wire.allBytes_append, List.mapM_append,
    hannotations, hothers]
  rfl

theorem allBytes_of_isForeign {number : Nat} {records : List Record}
    (h : ∀ r ∈ records, r.number = number → r.payload.bytes? = none) :
    Wire.allBytes number records = [] := by
  rw [Wire.allBytes, List.filterMap_eq_nil_iff]
  intro r hr
  obtain ⟨hmem, hnumber⟩ := List.mem_filter.1 hr
  exact h r hmem (by simpa using hnumber)

theorem ofFieldBytes?_of_isForeign (h : IsForeign fieldNumber bytes) :
    ofFieldBytes? bytes = some [] := by
  obtain ⟨records, hrecords, hforeign⟩ := h
  rw [ofFieldBytes?, hrecords]
  simp [allBytes_of_isForeign hforeign]

end Field

section Message

variable {first second bytes : List UInt8}

/-- Reads the bytes of an annotation onto the one that has been found before. -/
def readOnto (found : Option MessageOptions) (content : List UInt8) :
    Option (Option MessageOptions) :=
  (MessageOptions.addBytes (Wire.depthLimit - 1) (found.getD {}) content).map some

theorem readOnto_laidOver (below above : Option MessageOptions) (content : List UInt8) :
    readOnto (laidOver below above) content =
      (readOnto above content).map (laidOver below) := by
  unfold readOnto
  cases below with
  | none =>
    have hlaid : laidOver none = id := funext none_laidOver
    simp [hlaid]
  | some below =>
    have hread : MessageOptions.addBytes (Wire.depthLimit - 1)
        ((laidOver (some below) above).getD {}) content =
          (MessageOptions.addBytes (Wire.depthLimit - 1) (above.getD {}) content).map
            below.merge := by
      cases above with
      | none => exact MessageOptions.addBytes_eq _ below content
      | some above => exact MessageOptions.addBytes_merge _ below above content
    rw [hread, Option.map_map, Option.map_map]
    rfl

theorem ofMessageBytes?_eq (bytes : List UInt8) :
    ofMessageBytes? bytes = (Wire.records? Wire.depthLimit bytes).bind fun records =>
      (Wire.allBytes messageNumber records).foldlM readOnto none := by
  have hstep : readOnto = fun found content => do
      return some (← MessageOptions.addBytes (Wire.depthLimit - 1) (found.getD {}) content) := by
    funext found content
    exact Option.map_eq_bind
  rw [hstep]
  rfl

theorem ofMessageBytes?_append {below above : Option MessageOptions}
    (hfirst : ofMessageBytes? first = some below) (hsecond : ofMessageBytes? second = some above) :
    ofMessageBytes? (first ++ second) = some (laidOver below above) := by
  rw [ofMessageBytes?_eq] at hfirst hsecond
  obtain ⟨records, hrecords, hbelow⟩ := Option.bind_eq_some_iff.1 hfirst
  obtain ⟨more, hmore, habove⟩ := Option.bind_eq_some_iff.1 hsecond
  rw [ofMessageBytes?_eq, Wire.records?_append hrecords hmore, Option.bind_some,
    Wire.allBytes_append, List.foldlM_append, hbelow]
  have hsteps := foldlM_map (readOnto_laidOver below) (Wire.allBytes messageNumber more) none
  rw [habove, laidOver_none] at hsteps
  exact hsteps

theorem ofMessageBytes?_of_isForeign (h : IsForeign messageNumber bytes) :
    ofMessageBytes? bytes = some none := by
  obtain ⟨records, hrecords, hforeign⟩ := h
  rw [ofMessageBytes?_eq, hrecords]
  simp [allBytes_of_isForeign hforeign]

end Message

/-- Annotations are read piece by piece. Of bytes that are accepted one behind the other, a field has
the annotations of the first ones and then those of the second, and a message has the annotation of
the second ones laid over that of the first, if one of them has any. So foreign options around an
annotation, whatever the form of their payloads, do not change it. -/
theorem read_of_append (first second : List UInt8) :
    (∀ annotations others, ofFieldBytes? first = some annotations →
      ofFieldBytes? second = some others →
      ofFieldBytes? (first ++ second) = some (annotations ++ others)) ∧
    (∀ below above, ofMessageBytes? first = some below →
      ofMessageBytes? second = some above →
      ofMessageBytes? (first ++ second) = some (laidOver below above) ∧
      (laidOver below above).isSome = (below.isSome || above.isSome)) ∧
    (∀ bytes annotations, IsForeign fieldNumber first → IsForeign fieldNumber second →
      ofFieldBytes? bytes = some annotations →
      ofFieldBytes? (first ++ bytes ++ second) = some annotations) ∧
    (∀ bytes found, IsForeign messageNumber first → IsForeign messageNumber second →
      ofMessageBytes? bytes = some found →
      ofMessageBytes? (first ++ bytes ++ second) = some found) := by
  refine ⟨fun annotations others hfirst hsecond => ofFieldBytes?_append hfirst hsecond,
    fun below above hfirst hsecond => ⟨ofMessageBytes?_append hfirst hsecond, ?_⟩,
    fun bytes annotations hfirst hsecond hbytes => ?_,
    fun bytes found hfirst hsecond hbytes => ?_⟩
  · exact Option.isSome_merge
  · have hfront := ofFieldBytes?_append (ofFieldBytes?_of_isForeign hfirst) hbytes
    have hboth := ofFieldBytes?_append hfront (ofFieldBytes?_of_isForeign hsecond)
    rwa [List.nil_append, List.append_nil] at hboth
  · have hfront := ofMessageBytes?_append (ofMessageBytes?_of_isForeign hfirst) hbytes
    have hboth := ofMessageBytes?_append hfront (ofMessageBytes?_of_isForeign hsecond)
    rwa [none_laidOver, laidOver_none] at hboth

/-- A group and a payload of another form in front of an annotation, a field of four bytes behind it,
and an annotation whose map entry sets the value again. -/
theorem read_of_append_group :
    let group : List UInt8 := [0x2B, 0x08, 0x01, 0x2C]
    let other : List UInt8 := [0xF0, 0xCF, 0x18, 5]
    let fixed : List UInt8 := [0x0D, 1, 2, 3, 4]
    let named : List UInt8 := [0xF2, 0xCF, 0x18, 3, 0x1A, 1, 0x6E]
    let typed : List UInt8 := [0xFA, 0xCF, 0x18, 13, 0x0A, 1, 0x41, 0x62, 8, 0x0A, 1, 0x6B, 0x12, 3,
      0x0A, 1, 0x54]
    let bare : List UInt8 := [0xFA, 0xCF, 0x18, 8, 0x42, 1, 0x68, 0x62, 3, 0x0A, 1, 0x6B]
    ofFieldBytes? (other ++ named) = some [{ name := some "n" }] ∧
    ofMessageBytes? (typed ++ bare) = some (some
      { className := some "A", includes := ["h"], typeMap := KeyMap.insert {} "k" {} }) ∧
    ofFieldBytes? (group ++ named ++ fixed) = some [{ name := some "n" }] ∧
    ofMessageBytes? (group ++ bare ++ fixed) = some (some
      { includes := ["h"], typeMap := KeyMap.insert {} "k" {} }) := by
  intro group other fixed named typed bare
  have hgroup : Wire.records? Wire.depthLimit group = some [⟨5, .group⟩] := by decide +kernel
  have hfixed : Wire.records? Wire.depthLimit fixed = some [⟨1, .fixed32⟩] := by decide +kernel
  have hnamed : ofFieldBytes? named = some [{ name := some "n" }] := by decide +kernel
  have htyped : ofMessageBytes? typed = some (some
      { className := some "A", typeMap := KeyMap.insert {} "k" { type := some "T" } }) := by
    decide +kernel
  have hbare : ofMessageBytes? bare = some (some
      { includes := ["h"], typeMap := KeyMap.insert {} "k" {} }) := by decide +kernel
  refine ⟨?_, ?_, ?_, ?_⟩
  · exact (read_of_append other named).1 [] _ (by decide +kernel) hnamed
  · exact ((read_of_append typed bare).2.1 _ _ htyped hbare).1
  · exact (read_of_append group fixed).2.2.1 named _ ⟨_, hgroup, by decide⟩ ⟨_, hfixed, by decide⟩
      hnamed
  · exact (read_of_append group fixed).2.2.2 bare _ ⟨_, hgroup, by decide⟩ ⟨_, hfixed, by decide⟩
      hbare

end Annotations

end FluentGen
