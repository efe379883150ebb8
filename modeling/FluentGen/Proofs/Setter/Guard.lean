import FluentGen.Proofs.Emit.Lines
import FluentGen.Setter.Write

/-!
The guard of a predicate. Where a method with a predicate is defined, its head is followed by the
guard and the guard by the body. Which of the two guards it is depends on nothing but the setting
that the methods were given.
-/

namespace FluentGen.Setter

open Emit (linesOf StaysIn)

/-- The guard that records the status of a failed predicate, unless a failure is recorded. -/
def recordingGuard (predicate : String) : List String :=
  [ "const auto status = " ++ predicate ++ ";",
    "if (!status.ok()) \x7b",
    "  if (status_.ok()) \x7b",
    "    UpdateStatus(status);",
    "  \x7d",
    "  return *this;",
    "\x7d"]

/-- The guard that only leaves the value out. -/
def droppingGuard (predicate : String) : List String :=
  ["if (!" ++ predicate ++ ".ok()) \x7b", "  return *this;", "\x7d"]

/-- The methods are defined in a channel: in the header if they are templates, otherwise in the
source. -/
structure DefinedIn (s : Setter) (channel : Channel) : Prop where
  sensible : s.conflict? = none
  place : (channel = .header ∧ s.traits.header ∧ (s.traits.template ∨ s.traits.foreach)) ∨
    (channel = .source ∧ s.traits.source)

section Places

variable (s : Setter) (channel : Channel)

theorem staysIn_writeTemplateLine : StaysIn [channel] (s.writeTemplateLine channel) := by
  unfold writeTemplateLine
  split
  · split
    · exact .of_silent fun _ => rfl
    · exact .line _ _
  · split
    · dsimp only
      split
      · exact .line _ _
      · exact .line _ _
    · exact .of_silent fun _ => rfl

theorem staysIn_writePredicate : StaysIn [channel] (s.writePredicate channel) := by
  unfold writePredicate
  split
  · exact .of_silent fun _ => rfl
  · refine .bind (.of_silent fun _ => rfl) ?_
    intro predicate
    split
    · exact .bind (.lines _ _) fun _ => .lines _ _
    · exact .bind (.line _ _) fun _ => .lines _ _

theorem staysIn_writeBody : StaysIn [channel] (s.writeBody channel) := by
  have hvalue : ∀ {next : String → Emit Unit}, (∀ value, StaysIn [channel] (next value)) →
      StaysIn [channel] (Emit.lift s.setValue >>= next) :=
    fun hnext => .bind (.of_silent fun _ => rfl) hnext
  unfold writeBody
  dsimp only
  split
  · exact hvalue fun _ => .line _ _
  · split
    · exact hvalue fun _ => .line _ _
    · split
      · apply hvalue
        intro value
        split
        · exact .bind (.line _ _) fun _ => .bind (.line _ _) fun _ => .line _ _
        · exact .line _ _
      · split
        · exact hvalue fun _ => .line _ _
        · exact hvalue fun _ => .line _ _

theorem staysIn_writeImplementation : StaysIn [channel] (s.writeImplementation channel) := by
  unfold writeImplementation
  refine .bind (.line _ _) fun _ => .bind (s.staysIn_writeTemplateLine channel) fun _ => ?_
  refine .bind (.line _ _) fun _ => .bind (s.staysIn_writePredicate channel) fun _ => ?_
  exact .bind (s.staysIn_writeBody channel) fun _ => .lines _ _

theorem staysIn_writeSetFromBuilder : StaysIn [.header] s.writeSetFromBuilder := by
  unfold writeSetFromBuilder
  split
  · exact .of_silent fun _ => rfl
  · exact .lines _ _

/-- The overload for other builders is written to the header, whatever the channel, but not where
there are interfaces. -/
theorem staysIn_writeDeclaration (h : channel = .header ∨ s.context.makeInterface = true) :
    StaysIn [channel] (s.writeDeclaration channel) := by
  unfold writeDeclaration
  refine .bind (s.staysIn_writeTemplateLine channel) fun _ => .bind (.line _ _) fun _ => ?_
  split
  · exact .of_silent fun _ => rfl
  · next hnone =>
    rcases h with rfl | hinterface
    · exact s.staysIn_writeSetFromBuilder
    · exact absurd hinterface hnone

theorem staysIn_needsOf (o : FieldOptions) : StaysIn [] (needsOf o) :=
  .bind (.of_silent fun _ => Emit.linesOf_needsAll _ _ _)
    fun _ => .of_silent fun _ => Emit.linesOf_needsAll _ _ _

theorem staysIn_addIncludes : StaysIn [] s.addIncludes := by
  unfold addIncludes
  generalize (if s.addsSourceLocation then s.sourceLocation? else none) = location
  cases location with
  | none =>
    have hrest : StaysIn [] (needsOf s.options >>= fun _ => pure ()) :=
      .bind (staysIn_needsOf _) fun _ => .of_silent fun _ => rfl
    dsimp only
    split
    · exact .bind (.of_silent fun _ => rfl) fun _ => hrest
    · split
      · exact .bind (.of_silent fun _ => rfl) fun _ => hrest
      · exact hrest
  | some location =>
    have hrest : StaysIn [] (needsOf s.options >>= fun _ => needsOf location) :=
      .bind (staysIn_needsOf _) fun _ => staysIn_needsOf _
    dsimp only
    split
    · exact .bind (.of_silent fun _ => rfl) fun _ => hrest
    · split
      · exact .bind (.of_silent fun _ => rfl) fun _ => hrest
      · exact hrest

end Places

/-- The line that opens the definition of the method. -/
def signature (s : Setter) (channel : Channel) : String :=
  let name :=
    if channel = .header then s.methodName else s.context.className ++ "::" ++ s.methodName
  s.context.className ++ "& " ++ name ++ "(" ++ s.methodParam channel ++ ")"
    ++ (if channel = .header && s.raw.override.getD false then " override" else "") ++ " \x7b"

/-- What the methods write to the header. -/
def headerPart (s : Setter) : Emit Unit :=
  if s.traits.header then
    if s.traits.template || s.traits.foreach then s.writeImplementation .header
    else s.writeDeclaration .header
  else pure ()

/-- What the methods write to the source. -/
def sourcePart (s : Setter) : Emit Unit :=
  if s.traits.source then s.writeImplementation .source else pure ()

/-- What the methods write to the interface. -/
def interfacePart (s : Setter) : Emit Unit :=
  if s.context.makeInterface then s.writeDeclaration .interface else pure ()

section Parts

variable {s : Setter} {channel : Channel}

theorem staysIn_headerPart : StaysIn [.header] s.headerPart := by
  unfold headerPart
  split
  · split
    · exact s.staysIn_writeImplementation .header
    · exact s.staysIn_writeDeclaration .header (Or.inl rfl)
  · exact .of_silent fun _ => rfl

theorem staysIn_sourcePart : StaysIn [.source] s.sourcePart := by
  unfold sourcePart
  split
  · exact s.staysIn_writeImplementation .source
  · exact .of_silent fun _ => rfl

theorem staysIn_interfacePart : StaysIn [.interface] s.interfacePart := by
  unfold interfacePart
  split
  · next hinterface => exact s.staysIn_writeDeclaration .interface (Or.inr hinterface)
  · exact .of_silent fun _ => rfl

theorem write_eq_parts (hmode : s.options.mode ≠ .skip) (hsensible : s.conflict? = none) :
    s.write = (do
      s.addIncludes
      s.headerPart
      s.sourcePart
      s.interfacePart) := by
  unfold write isValidOrWriteError headerPart sourcePart interfacePart
  rw [hsensible, if_neg hmode]
  cases s.traits.header with
  | false =>
    cases s.traits.source with
    | false => rfl
    | true => rfl
  | true =>
    cases s.traits.template || s.traits.foreach with
    | false =>
      cases s.traits.source with
      | false => rfl
      | true => rfl
    | true =>
      cases s.traits.source with
      | false => rfl
      | true => rfl

theorem DefinedIn.mode_ne_skip (h : s.DefinedIn channel) : s.options.mode ≠ .skip := by
  intro hskip
  rcases h.place with ⟨-, hheader, -⟩ | ⟨-, hsource⟩
  · rw [traits, hskip] at hheader
    cases hheader
  · rw [traits, hskip] at hsource
    cases hsource

/-- Methods that are written have the parts of all channels one after the other. -/
theorem parts_of_write (channel : Channel) (hmode : s.options.mode ≠ .skip)
    (hsensible : s.conflict? = none) (h : s.write.result = .ok ()) :
    s.headerPart.result = .ok () ∧ s.sourcePart.result = .ok () ∧
      linesOf channel s.write = linesOf channel s.headerPart ++
        (linesOf channel s.sourcePart ++ linesOf channel s.interfacePart) := by
  rw [write_eq_parts hmode hsensible] at h ⊢
  obtain ⟨_, -, hparts, hlines⟩ := Emit.linesOf_bind channel h
  obtain ⟨_, hheader, hmore, hlinesHeader⟩ := Emit.linesOf_bind channel hparts
  obtain ⟨_, hsource, -, hlinesSource⟩ := Emit.linesOf_bind channel hmore
  have hincludes : linesOf channel s.addIncludes = [] :=
    s.staysIn_addIncludes channel List.not_mem_nil
  rw [hlines, hlinesHeader, hlinesSource, hincludes, List.nil_append]
  exact ⟨hheader, hsource, rfl⟩

/-- Where methods are defined, the definition is all that is written. -/
theorem linesOf_write (hdefined : s.DefinedIn channel) (h : s.write.result = .ok ()) :
    (s.writeImplementation channel).result = .ok () ∧
      linesOf channel s.write = linesOf channel (s.writeImplementation channel) := by
  obtain ⟨hheader, hsource, hlines⟩ :=
    parts_of_write channel hdefined.mode_ne_skip hdefined.sensible h
  rw [hlines]
  rcases hdefined.place with ⟨rfl, hon, hform⟩ | ⟨rfl, hon⟩
  · have hpart : s.headerPart = s.writeImplementation .header := by
      rw [headerPart, if_pos hon, if_pos (by simpa using hform)]
    rw [staysIn_sourcePart .header (by decide), staysIn_interfacePart .header (by decide), hpart,
      List.append_nil, List.append_nil]
    exact ⟨hpart ▸ hheader, rfl⟩
  · have hpart : s.sourcePart = s.writeImplementation .source := by
      rw [sourcePart, if_pos hon]
    rw [staysIn_headerPart .source (by decide), staysIn_interfacePart .source (by decide), hpart,
      List.append_nil, List.nil_append]
    exact ⟨hpart ▸ hsource, rfl⟩

theorem linesOf_writePredicate (hgiven : (textOf s.raw.predicate).isEmpty = false)
    (h : (s.writePredicate channel).result = .ok ()) :
    ∃ predicate, s.predicate = .ok predicate ∧
      linesOf channel (s.writePredicate channel) =
        if s.context.useStatus then recordingGuard predicate else droppingGuard predicate := by
  unfold writePredicate at h ⊢
  rw [hgiven] at h ⊢
  obtain ⟨predicate, hpredicate, hguard, hlines⟩ := Emit.linesOf_bind channel h
  refine ⟨predicate, hpredicate, hlines.trans ?_⟩
  cases hstatus : s.context.useStatus with
  | true =>
    simp only [hstatus] at hguard ⊢
    obtain ⟨_, -, -, hlast⟩ := Emit.linesOf_bind channel hguard
    simpa [recordingGuard] using hlast
  | false =>
    simp only [hstatus] at hguard ⊢
    obtain ⟨_, -, -, hlast⟩ := Emit.linesOf_bind channel hguard
    simpa [droppingGuard] using hlast

/-- The definition of methods: the head, what is written for the predicate, the body, and the
end. -/
theorem linesOf_write_of_defined (hdefined : s.DefinedIn channel) (h : s.write.result = .ok ()) :
    (s.writePredicate channel).result = .ok () ∧
      linesOf channel s.write =
        "" :: linesOf channel (s.writeTemplateLine channel) ++ [s.signature channel] ++
          linesOf channel (s.writePredicate channel) ++
          linesOf channel (s.writeBody channel) ++ ["  return *this;", "\x7d", ""] := by
  obtain ⟨hresult, hlines⟩ := linesOf_write hdefined h
  rw [hlines]
  have hsteps : s.writeImplementation channel = (do
      Emit.line channel ""
      s.writeTemplateLine channel
      Emit.line channel (s.signature channel)
      s.writePredicate channel
      s.writeBody channel
      Emit.lines channel ["  return *this;", "\x7d", ""]) := rfl
  rw [hsteps] at hresult ⊢
  obtain ⟨_, -, hrest, hempty⟩ := Emit.linesOf_bind channel hresult
  obtain ⟨_, -, hrest, htemplate⟩ := Emit.linesOf_bind channel hrest
  obtain ⟨_, -, hrest, hsignature⟩ := Emit.linesOf_bind channel hrest
  obtain ⟨_, hguard, hrest, hguardLines⟩ := Emit.linesOf_bind channel hrest
  obtain ⟨_, -, -, hbody⟩ := Emit.linesOf_bind channel hrest
  refine ⟨hguard, ?_⟩
  rw [hempty, htemplate, hsignature, hguardLines, hbody]
  simp

/-- The definition of methods with a predicate has its guard between the head and the body. -/
theorem linesOf_write_of_predicate (hdefined : s.DefinedIn channel)
    (hgiven : (textOf s.raw.predicate).isEmpty = false) (h : s.write.result = .ok ()) :
    ∃ predicate, s.predicate = .ok predicate ∧
      linesOf channel s.write =
        "" :: linesOf channel (s.writeTemplateLine channel) ++ [s.signature channel] ++
          (if s.context.useStatus then recordingGuard predicate else droppingGuard predicate) ++
          linesOf channel (s.writeBody channel) ++ ["  return *this;", "\x7d", ""] := by
  obtain ⟨hguard, hlines⟩ := linesOf_write_of_defined hdefined h
  obtain ⟨predicate, hpredicate, hpredicateLines⟩ := linesOf_writePredicate hgiven hguard
  refine ⟨predicate, hpredicate, ?_⟩
  rw [hlines, hpredicateLines]

end Parts

end FluentGen.Setter
