import FluentGen.Text.Substitution
import Mathlib.Data.List.Forall2
import Mathlib.Data.List.Infix

/-!
Tokens are replaced along a cut of the text in which the values have no part. The cut leaves no
token standing, and an inserted value is not looked at again. Where no token begins another one, the
order of the pairs matters only among those of one token.
-/

namespace FluentGen.Text

/-- A text that is cut into tokens and characters between them. A character stands between tokens
only if no token begins there. -/
inductive CutAt (tokens : List (List Char)) : List Char → List Segment → Prop where
  | nil : CutAt tokens [] []
  | literal {c : Char} {rest : List Char} {cut : List Segment}
      (free : ∀ t ∈ tokens, t ≠ [] → ¬ t <+: c :: rest) (more : CutAt tokens rest cut) :
      CutAt tokens (c :: rest) (.literal c :: cut)
  | token {t rest : List Char} {cut : List Segment} (listed : t ∈ tokens) (shown : t ≠ [])
      (more : CutAt tokens rest cut) : CutAt tokens (t ++ rest) (.token t :: cut)

section Cutting

variable {tokens : List (List Char)} {text : List Char} {cut : List Segment}

theorem CutAt.source (h : CutAt tokens text cut) : cut.flatMap Segment.source = text := by
  induction h with
  | nil => rfl
  | literal _ _ ih => rw [List.flatMap_cons, ih]; rfl
  | token _ _ _ ih => rw [List.flatMap_cons, ih]; rfl

theorem CutAt.listed (h : CutAt tokens text cut) {t : List Char} (ht : .token t ∈ cut) :
    t ∈ tokens ∧ t ≠ [] := by
  induction h with
  | nil => cases ht
  | literal _ _ ih =>
    rcases List.mem_cons.1 ht with heq | ht
    · cases heq
    · exact ih ht
  | token listed shown _ ih =>
    rcases List.mem_cons.1 ht with heq | ht
    · cases heq
      exact ⟨listed, shown⟩
    · exact ih ht

/-- What follows a character that stays, from this character on, begins with no token. -/
theorem CutAt.free (h : CutAt tokens text cut) {before after : List Segment} {c : Char}
    (hcut : cut = before ++ .literal c :: after) {t : List Char} (ht : t ∈ tokens) (hshown : t ≠ []) :
    ¬ t <+: c :: after.flatMap Segment.source := by
  induction h generalizing before with
  | nil => simp at hcut
  | literal free more ih =>
    cases before with
    | nil =>
      cases hcut
      rw [more.source]
      exact free t ht hshown
    | cons first before => exact ih (List.cons.inj hcut).2
  | token _ _ more ih =>
    cases before with
    | nil => cases hcut
    | cons first before => exact ih (List.cons.inj hcut).2

theorem of_leadingToken?_eq_some {t : List Char} (h : leadingToken? tokens text = some t) :
    t ∈ tokens ∧ t ≠ [] ∧ t <+: text := by
  have hfound := List.find?_some h
  rw [Bool.and_eq_true] at hfound
  refine ⟨List.mem_of_find?_eq_some h, ?_, List.isPrefixOf_iff_prefix.1 hfound.2⟩
  simpa using hfound.1

theorem of_leadingToken?_eq_none (h : leadingToken? tokens text = none) {t : List Char}
    (ht : t ∈ tokens) (hshown : t ≠ []) : ¬ t <+: text := by
  intro hprefix
  have hfound := List.find?_eq_none.1 h t ht
  simp [hshown, List.isPrefixOf_iff_prefix.2 hprefix] at hfound

/-- The cut goes on behind the characters that still belong to the last token. -/
theorem cutAt_segmentsFrom (skip : Nat) (text : List Char) :
    CutAt tokens (text.drop skip) (segmentsFrom tokens skip text) := by
  fun_induction segmentsFrom tokens skip text with
  | case1 skip => rw [List.drop_nil]; exact .nil
  | case2 skip c rest ih => exact ih
  | case3 c rest t hleading ih =>
    obtain ⟨hlisted, hshown, after, hafter⟩ := of_leadingToken?_eq_some hleading
    have hrest : rest.drop (t.length - 1) = after := by
      cases t with
      | nil => exact absurd rfl hshown
      | cons first t =>
        obtain ⟨-, rfl⟩ := List.cons.inj hafter
        simp
    rw [hrest] at ih
    rw [List.drop_zero, ← hafter]
    exact .token hlisted hshown ih
  | case4 c rest hleading ih =>
    refine .literal ?_ ih
    intro t ht hshown
    exact of_leadingToken?_eq_none hleading ht hshown

theorem cutAt_segments (tokens : List (List Char)) (text : List Char) :
    CutAt tokens text (segments tokens text) :=
  cutAt_segmentsFrom 0 text

end Cutting

/-- What becomes of a segment: a character stays, and for a token stands the value of the first pair
that has it. -/
inductive Segment.Becomes (pairs : List (String × String)) : Segment → List Char → Prop where
  | literal (c : Char) : Becomes pairs (.literal c) [c]
  | token {before after : List (String × String)} {token value : String}
      (given : pairs = before ++ (token, value) :: after) (first : token ∉ before.map Prod.fst) :
      Becomes pairs (.token token.toList) value.toList

/-- Pairs in another order: the pairs of any one token follow each other as before. -/
def Reordered (pairs pairs' : List (String × String)) : Prop :=
  ∀ token, pairs'.filter (·.1 == token) = pairs.filter (·.1 == token)

section Filling

/-- The pairs as they are put into a text. -/
def spelled (pairs : List (String × String)) : List (List Char × List Char) :=
  pairs.map fun p => (p.1.toList, p.2.toList)

theorem toList_substitute (pairs : List (String × String)) (text : String) :
    (substitute pairs text).toList =
      (segments ((pairs.map Prod.fst).map String.toList) text.toList).flatMap
        (Segment.render (spelled pairs)) := by
  rw [substitute, String.toList_ofList, substituteChars, List.map_map, List.map_map]
  rfl

theorem lookup_spelled (pairs : List (String × String)) (token : String) :
    (spelled pairs).lookup token.toList = (pairs.lookup token).map String.toList := by
  induction pairs with
  | nil => rfl
  | cons p rest ih =>
    have hrest : spelled (p :: rest) = (p.1.toList, p.2.toList) :: spelled rest := rfl
    rw [hrest, List.lookup_cons, List.lookup_cons, ih]
    by_cases hp : token = p.1
    · rw [hp, beq_self_eq_true, beq_self_eq_true]
      rfl
    · have hchars : (token.toList == p.1.toList) = false := by simpa [String.toList_inj] using hp
      rw [hchars, beq_false_of_ne hp]

theorem becomes_of_listed {pairs : List (String × String)} {token : String}
    (h : token ∈ pairs.map Prod.fst) :
    Segment.Becomes pairs (.token token.toList)
      (Segment.render (spelled pairs) (.token token.toList)) := by
  rw [Segment.render, lookup_spelled]
  cases hvalue : pairs.lookup token with
  | none =>
    obtain ⟨p, hp, rfl⟩ := List.mem_map.1 h
    have hother := List.lookup_eq_none_iff.1 hvalue p hp
    simp at hother
  | some value =>
    obtain ⟨before, after, hgiven, hbefore⟩ := List.lookup_eq_some_iff.1 hvalue
    refine .token hgiven ?_
    intro hmem
    obtain ⟨p, hp, rfl⟩ := List.mem_map.1 hmem
    simpa using hbefore p hp

/-- Substituting is putting in what the segments of the cut become. -/
theorem exists_pieces (pairs : List (String × String)) (text : String) :
    ∃ pieces, List.Forall₂ (Segment.Becomes pairs)
        (segments ((pairs.map Prod.fst).map String.toList) text.toList) pieces ∧
      (substitute pairs text).toList = pieces.flatten := by
  have hbecomes : ∀ segment ∈ segments ((pairs.map Prod.fst).map String.toList) text.toList,
      segment.Becomes pairs (segment.render (spelled pairs)) := by
    intro segment hsegment
    cases segment with
    | literal c => exact .literal c
    | token t =>
      obtain ⟨hlisted, -⟩ := (cutAt_segments _ _).listed hsegment
      obtain ⟨token, htoken, rfl⟩ := List.mem_map.1 hlisted
      exact becomes_of_listed htoken
  refine ⟨_, List.forall₂_map_right_iff.2 (List.forall₂_same.2 hbecomes), ?_⟩
  rw [toList_substitute, List.flatMap_def]

/-- All occurrences of a token become the value that a look-up finds for it. -/
theorem Segment.Becomes.eq_of_lookup {pairs : List (String × String)} {token value : String}
    {piece : List Char} (h : Segment.Becomes pairs (.token token.toList) piece)
    (hvalue : pairs.lookup token = some value) : piece = value.toList := by
  generalize hsegment : Segment.token token.toList = segment at h
  cases h with
  | literal c => cases hsegment
  | token given first =>
    rename_i before after name found
    have hname : token = name := String.toList_injective (Segment.token.inj hsegment)
    have hnone : before.lookup name = none := by
      rw [List.lookup_eq_none_iff]
      intro p hp
      have hne : name ≠ p.1 := fun heq => first (heq ▸ List.mem_map_of_mem hp)
      simpa using hne
    rw [given, hname, List.lookup_append, hnone, List.lookup_cons, beq_self_eq_true] at hvalue
    rw [Option.some.inj hvalue]

/-- What a text holds after replacing has stood between the occurrences of the token, or comes from
the value. The cut does not depend on the value. -/
theorem mem_replace_iff {token value text : String} {c : Char} :
    c ∈ (replace token value text).toList ↔
      .literal c ∈ segments [token.toList] text.toList ∨
        .token token.toList ∈ segments [token.toList] text.toList ∧ c ∈ value.toList := by
  have hrender : ∀ segment ∈ segments [token.toList] text.toList,
      (c ∈ segment.render (spelled [(token, value)]) ↔
        segment = .literal c ∨ segment = .token token.toList ∧ c ∈ value.toList) := by
    intro segment hsegment
    cases segment with
    | literal d => simp [Segment.render, eq_comm]
    | token t =>
      obtain ⟨hlisted, -⟩ := (cutAt_segments _ _).listed hsegment
      obtain rfl := List.mem_singleton.1 hlisted
      simp [Segment.render, spelled]
  rw [replace, toList_substitute, List.mem_flatMap]
  constructor
  · rintro ⟨segment, hsegment, hc⟩
    rcases (hrender segment hsegment).1 hc with rfl | ⟨rfl, hvalue⟩
    · exact Or.inl hsegment
    · exact Or.inr ⟨hsegment, hvalue⟩
  · rintro (hsegment | ⟨hsegment, hvalue⟩)
    · exact ⟨_, hsegment, (hrender _ hsegment).2 (Or.inl rfl)⟩
    · exact ⟨_, hsegment, (hrender _ hsegment).2 (Or.inr ⟨rfl, hvalue⟩)⟩

/-- A character that one value has left no trace of is brought in by another value only. -/
theorem not_mem_replace {token value other text : String} {c : Char}
    (h : c ∉ (replace token other text).toList) (hvalue : c ∉ value.toList) :
    c ∉ (replace token value text).toList := by
  rw [mem_replace_iff] at h ⊢
  rintro (hliteral | ⟨-, hmem⟩)
  · exact h (Or.inl hliteral)
  · exact hvalue hmem

end Filling

section Order

variable {tokens tokens' : List (List Char)}

/-- No token begins another one. -/
def PrefixFree (tokens : List (List Char)) : Prop :=
  ∀ s ∈ tokens, ∀ t ∈ tokens, s ≠ [] → s <+: t → s = t

/-- Of tokens that begin none of the others at most one begins a text, wherever it is listed. -/
theorem leadingToken?_congr (hfree : PrefixFree tokens) (hsame : ∀ t, t ∈ tokens' ↔ t ∈ tokens)
    (text : List Char) : leadingToken? tokens' text = leadingToken? tokens text := by
  cases hleading : leadingToken? tokens text with
  | none =>
    apply List.find?_eq_none.2
    intro t ht hfound
    rw [Bool.and_eq_true] at hfound
    have hshown : t ≠ [] := by simpa using hfound.1
    exact of_leadingToken?_eq_none hleading ((hsame t).1 ht) hshown
      (List.isPrefixOf_iff_prefix.1 hfound.2)
  | some t =>
    obtain ⟨hlisted, hshown, hprefix⟩ := of_leadingToken?_eq_some hleading
    cases hother : leadingToken? tokens' text with
    | none => exact absurd hprefix (of_leadingToken?_eq_none hother ((hsame t).2 hlisted) hshown)
    | some t' =>
      obtain ⟨hlisted', hshown', hprefix'⟩ := of_leadingToken?_eq_some hother
      have hmem : t' ∈ tokens := (hsame t').1 hlisted'
      congr 1
      rcases List.prefix_or_prefix_of_prefix hprefix' hprefix with h | h
      · exact hfree t' hmem t hlisted hshown' h
      · exact (hfree t hlisted t' hmem hshown h).symm

theorem segmentsFrom_congr
    (h : ∀ text, leadingToken? tokens' text = leadingToken? tokens text) (skip : Nat)
    (text : List Char) : segmentsFrom tokens' skip text = segmentsFrom tokens skip text := by
  fun_induction segmentsFrom tokens skip text with
  | case1 skip => simp [segmentsFrom]
  | case2 skip c rest ih => rw [segmentsFrom, ih]
  | case3 c rest t hleading ih =>
    rw [segmentsFrom, h, hleading]
    exact congrArg _ ih
  | case4 c rest hleading ih =>
    rw [segmentsFrom, h, hleading]
    exact congrArg _ ih

theorem lookup_eq_head? (pairs : List (String × String)) (token : String) :
    pairs.lookup token = (pairs.filter (·.1 == token)).head?.map Prod.snd := by
  induction pairs with
  | nil => rfl
  | cons p rest ih =>
    rw [List.lookup_cons, List.filter_cons]
    by_cases hp : token = p.1
    · simp [hp]
    · rw [beq_false_of_ne hp, beq_false_of_ne (Ne.symm hp)]
      exact ih

theorem Reordered.mem_iff {pairs pairs' : List (String × String)} (h : Reordered pairs pairs')
    (p : String × String) : p ∈ pairs' ↔ p ∈ pairs := by
  have hsame : p ∈ pairs'.filter (·.1 == p.1) ↔ p ∈ pairs.filter (·.1 == p.1) := by rw [h p.1]
  simpa using hsame

/-- Two neighbours with different tokens may change places. -/
theorem reordered_swap (before after : List (String × String)) {p q : String × String}
    (h : p.1 ≠ q.1) : Reordered (before ++ p :: q :: after) (before ++ q :: p :: after) := by
  intro token
  simp only [List.filter_append, List.filter_cons]
  by_cases hp : p.1 = token
  · have hq : q.1 ≠ token := fun heq => h (hp.trans heq.symm)
    simp [hp, hq]
  · simp [hp]

theorem substitute_reordered {pairs pairs' : List (String × String)}
    (hfree : PrefixFree ((pairs.map Prod.fst).map String.toList)) (h : Reordered pairs pairs')
    (text : String) : substitute pairs' text = substitute pairs text := by
  have hlisted : ∀ t, t ∈ (pairs'.map Prod.fst).map String.toList ↔
      t ∈ (pairs.map Prod.fst).map String.toList := by
    intro t
    simp only [List.mem_map, h.mem_iff]
  have hcut : segments ((pairs'.map Prod.fst).map String.toList) text.toList =
      segments ((pairs.map Prod.fst).map String.toList) text.toList :=
    segmentsFrom_congr (leadingToken?_congr hfree hlisted) 0 text.toList
  apply String.toList_injective
  rw [toList_substitute, toList_substitute, hcut]
  apply List.flatMap_congr
  intro segment hsegment
  cases segment with
  | literal c => rfl
  | token t =>
    obtain ⟨hmem, -⟩ := (cutAt_segments _ _).listed hsegment
    obtain ⟨token, -, rfl⟩ := List.mem_map.1 hmem
    rw [Segment.render, Segment.render, lookup_spelled, lookup_spelled, lookup_eq_head? pairs',
      h token, ← lookup_eq_head?]

end Order

/-- A text is cut once for all values: the segments are the text, each token that is cut off is a
listed one that is not empty, and no listed one begins where a character stays. Whatever the values
are, the result is what the segments become. If no token begins another one, pairs with different
tokens may stand in any order. -/
theorem substitute_along_cut (tokens : List String) (text : String) :
    (∃ cut : List Segment,
      cut.flatMap Segment.source = text.toList ∧
      (∀ t, .token t ∈ cut → String.ofList t ∈ tokens ∧ t ≠ []) ∧
      (∀ before c after, cut = before ++ .literal c :: after → ∀ t ∈ tokens, t ≠ "" →
        ¬ t.toList <+: c :: after.flatMap Segment.source) ∧
      ∀ pairs : List (String × String), pairs.map Prod.fst = tokens →
        ∃ pieces, List.Forall₂ (Segment.Becomes pairs) cut pieces ∧
          (substitute pairs text).toList = pieces.flatten) ∧
    ((∀ s ∈ tokens, ∀ t ∈ tokens, s ≠ "" → s.toList <+: t.toList → s = t) →
      ∀ pairs pairs' : List (String × String), pairs.map Prod.fst = tokens →
        Reordered pairs pairs' → substitute pairs' text = substitute pairs text) := by
  have hcut := cutAt_segments (tokens.map String.toList) text.toList
  constructor
  · refine ⟨_, hcut.source, ?_, ?_, ?_⟩
    · intro t ht
      obtain ⟨hlisted, hshown⟩ := hcut.listed ht
      obtain ⟨token, htoken, rfl⟩ := List.mem_map.1 hlisted
      rw [String.ofList_toList]
      exact ⟨htoken, hshown⟩
    · intro before c after heq t ht hshown
      apply hcut.free heq (List.mem_map_of_mem ht)
      simpa using hshown
    · rintro pairs rfl
      exact exists_pieces pairs text
  · rintro hfree pairs pairs' rfl hreordered
    refine substitute_reordered ?_ hreordered text
    intro s hs t ht hshown hprefix
    obtain ⟨first, hfirst, rfl⟩ := List.mem_map.1 hs
    obtain ⟨second, hsecond, rfl⟩ := List.mem_map.1 ht
    rw [hfree first hfirst second hsecond (by simpa using hshown) hprefix]

/-- Tokens that share a percent sign in the text, one of them listed twice, and a value that looks
like a token. -/
theorem substitute_along_cut_overlap :
    let pairs := [("%x%", "%y%"), ("%y%", "1"), ("%x%", "2")]
    let pairs' := [("%y%", "1"), ("%x%", "%y%"), ("%x%", "2")]
    Reordered pairs pairs' ∧
      (∃ cut pieces, cut.flatMap Segment.source = "%x%y%x%".toList ∧
        List.Forall₂ (Segment.Becomes pairs) cut pieces ∧
        (substitute pairs "%x%y%x%").toList = pieces.flatten) ∧
      substitute pairs' "%x%y%x%" = substitute pairs "%x%y%x%" ∧
      substitute pairs "%x%y%x%" = "%y%y%y%" := by
  intro pairs pairs'
  have hreordered : Reordered pairs pairs' := reordered_swap [] [("%x%", "2")] (by decide)
  obtain ⟨⟨cut, hsource, -, -, hpieces⟩, horder⟩ :=
    substitute_along_cut (pairs.map Prod.fst) "%x%y%x%"
  obtain ⟨pieces, hbecome, hresult⟩ := hpieces pairs rfl
  refine ⟨hreordered, ⟨cut, pieces, hsource, hbecome, hresult⟩, ?_, by decide +kernel⟩
  exact horder (by decide) pairs pairs' rfl hreordered

end FluentGen.Text
