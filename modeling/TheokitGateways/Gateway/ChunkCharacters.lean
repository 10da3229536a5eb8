import TheokitGateways.Gateway.ChunkText
import TheokitGateways.Js.Unicode

/-!
# Which cuts keep characters whole

A cut at a boundary falls before the boundary's first unit, so only the edge of
a window can sever a surrogate pair. With the guard no cut does
(`not_severs_of_guarded`); without it a pass of the loop does exactly where it
falls back to the edge and a pair lies across it (`severs_iff`).
-/

namespace TheokitGateways.Gateway
open Js

/-- The place is before a low surrogate. -/
def severs (remaining : JsString) (cut : Nat) : Bool := (remaining[cut]?).any isLowSurrogate

/-- What each pass of the loop that cuts begins with. -/
def chunkPasses (o : ChunkTextOptions) (hwindow : 0 < o.window) (lastIndex : Nat)
    (remaining : JsString) : List JsString :=
  if o.window < remaining.length then
    let stripped := o.stripLeading.replace lastIndex (remaining.drop (findCut o remaining))
    remaining :: chunkPasses o hwindow stripped.2 stripped.1
  else []
termination_by remaining.length
decreasing_by
  have hpos := findCut_pos hwindow remaining
  have hlen := o.stripLeading.length_le lastIndex (remaining.drop (findCut o remaining))
  rw [List.length_drop] at hlen
  omega

theorem wellFormed_take_iff {s : JsString} (hs : wellFormed s = true) (cut : Nat) :
    wellFormed (s.take cut) = true ↔ severs s cut = false := by
  rw [← List.take_append_drop cut s] at hs
  rw [wellFormed_left_iff hs, severs, List.head?_drop]

/-- The rest after a cut that keeps the characters whole, without white space at its front. -/
theorem wellFormed_stripped {strip : StripLeading} (hstrip : strip.OnlySpace) {s : JsString}
    (hs : wellFormed s = true) {cut : Nat} (hcut : severs s cut = false) (lastIndex : Nat) :
    wellFormed (strip.replace lastIndex (s.drop cut)).1 = true := by
  have htake := (wellFormed_take_iff hs cut).2 hcut
  rw [← List.take_append_drop cut s, wellFormed_append htake] at hs
  obtain ⟨w, hw, hspace⟩ := hstrip lastIndex (s.drop cut)
  rw [hw, wellFormed_append (wellFormed_of_isSpace hspace)] at hs
  exact hs

/-- The parts of a well-formed text are well formed exactly where no pass severs a pair. -/
theorem chunkLoop_wellFormed_iff {o : ChunkTextOptions} (hwindow : 0 < o.window)
    (hstrip : o.stripLeading.OnlySpace) {lastIndex : Nat} {remaining : JsString}
    (hs : wellFormed remaining = true) :
    (∀ part ∈ chunkLoop o hwindow lastIndex remaining, wellFormed part = true) ↔
      ∀ r ∈ chunkPasses o hwindow lastIndex remaining, severs r (findCut o r) = false := by
  fun_induction chunkLoop o hwindow lastIndex remaining with
  | case1 lastIndex remaining hlong cut stripped ih =>
    rw [chunkPasses, if_pos hlong]
    simp only [List.forall_mem_cons]
    rw [wellFormed_take_iff hs]
    refine and_congr_right fun hcut => ?_
    exact ih (wellFormed_stripped hstrip hs hcut lastIndex)
  | case2 lastIndex hshort =>
    rw [chunkPasses, if_neg hshort]
    simp
  | case3 lastIndex remaining hshort hne =>
    rw [chunkPasses, if_neg hshort]
    simp [hs]

/-- Boundaries that begin with no low surrogate, and at least one of them. -/
structure ChunkTextOptions.PlainBoundaries (o : ChunkTextOptions) : Prop where
  ne_nil : o.boundaries ≠ []
  plain : ∀ b ∈ o.boundaries, ∃ c t, b = c :: t ∧ isLowSurrogate c = false

/-- No boundary is accepted: none stands in the window's second half, nor, where the last boundary
is the last resort, does that one stand after the front. -/
def Unbroken (o : ChunkTextOptions) (remaining : JsString) : Prop :=
  (∀ b ∈ o.boundaries, 2 * lastIndexOf b remaining o.window < o.window) ∧
    (o.lastResort = .lastBoundary →
      ∀ b, o.boundaries.getLast? = some b → lastIndexOf b remaining o.window ≤ 0)

/-- What the search comes to. -/
theorem searchBoundary_cases (remaining : JsString) (window : Nat) (cut : Int)
    {boundaries : List JsString} (hne : boundaries ≠ []) :
    (∃ b ∈ boundaries, searchBoundary remaining window cut boundaries =
        lastIndexOf b remaining window ∧ window ≤ 2 * lastIndexOf b remaining window) ∨
      (∀ b ∈ boundaries, 2 * lastIndexOf b remaining window < window) ∧
        ∃ b, boundaries.getLast? = some b ∧
          searchBoundary remaining window cut boundaries = lastIndexOf b remaining window := by
  induction boundaries generalizing cut with
  | nil => contradiction
  | cons b boundaries ih =>
    rw [searchBoundary]
    split
    · exact .inl ⟨b, List.mem_cons_self, rfl, ‹_›⟩
    · cases boundaries with
      | nil => exact .inr ⟨by simp; omega, b, rfl, rfl⟩
      | cons b' boundaries =>
        obtain ⟨d, hd, heq, hhalf⟩ | ⟨hall, d, hlast, heq⟩ :=
          ih (lastIndexOf b remaining window) (List.cons_ne_nil _ _)
        · exact .inl ⟨d, List.mem_cons_of_mem _ hd, heq, hhalf⟩
        · refine .inr ⟨fun d hd => ?_, d, by simpa using hlast, heq⟩
          obtain rfl | hd := List.mem_cons.1 hd
          · omega
          · exact hall d hd

/-- The cut the search of a pass comes to, before the guard. -/
def soughtCut (o : ChunkTextOptions) (remaining : JsString) : Int :=
  resortCut o.lastResort o.window (searchBoundary remaining o.window o.window o.boundaries)

/-- A pass cuts at a boundary, or at the edge of a window in which none is accepted. -/
theorem soughtCut_cases {o : ChunkTextOptions} (hwindow : 0 < o.window)
    (hplain : o.PlainBoundaries) (remaining : JsString) :
    (¬Unbroken o remaining ∧ 0 < soughtCut o remaining ∧
        ∃ b ∈ o.boundaries, soughtCut o remaining = lastIndexOf b remaining o.window) ∨
      (Unbroken o remaining ∧ soughtCut o remaining = o.window) := by
  unfold soughtCut resortCut
  obtain ⟨b, hb, heq, hhalf⟩ | ⟨hall, b, hlast, heq⟩ :=
    searchBoundary_cases remaining o.window o.window hplain.ne_nil
  · rw [heq, if_neg (by omega)]
    refine .inl ⟨fun h => ?_, by omega, b, hb, rfl⟩
    have := h.1 b hb
    omega
  · have hb : b ∈ o.boundaries := List.mem_of_getLast? hlast
    rw [heq, if_pos (hall b hb)]
    split
    · obtain ⟨hresort, hpos⟩ := ‹_ ∧ _›
      refine .inl ⟨fun h => ?_, hpos, b, hb, rfl⟩
      have := h.2 hresort b hlast
      omega
    · refine .inr ⟨⟨hall, fun hresort d hd => ?_⟩, rfl⟩
      rw [hlast] at hd
      obtain rfl := Option.some.inj hd
      exact Int.not_lt.1 fun hpos => ‹¬(_ ∧ _)› ⟨hresort, hpos⟩

/-- A cut at a plain boundary severs nothing. -/
theorem not_severs_at_boundary {b remaining : JsString} {window k : Nat}
    (hplain : ∃ c t, b = c :: t ∧ isLowSurrogate c = false)
    (h : lastIndexOf b remaining window = k) : severs remaining k = false := by
  obtain ⟨c, t, rfl, hc⟩ := hplain
  obtain ⟨rest, hrest⟩ := prefix_drop_lastFrom h
  rw [severs, ← List.head?_drop, ← hrest]
  exact hc

/-- Without the guard a pass severs a pair exactly where no boundary is accepted and the pair lies
across the window's edge. -/
theorem severs_iff {o : ChunkTextOptions} (hwindow : 0 < o.window) (hplain : o.PlainBoundaries)
    (hguard : o.surrogateGuard = false) (remaining : JsString) :
    severs remaining (findCut o remaining) = true ↔
      Unbroken o remaining ∧ severs remaining o.window = true := by
  have hcut : findCut o remaining =
      if soughtCut o remaining ≤ 0 then o.window else (soughtCut o remaining).toNat := by
    simp only [findCut, settleCut, hguard, Bool.false_eq_true, if_false]
    rfl
  obtain ⟨hbroken, hpos, b, hb, heq⟩ | ⟨hunbroken, heq⟩ :=
    soughtCut_cases hwindow hplain remaining
  · rw [hcut, if_neg (by omega)]
    have hplace : lastIndexOf b remaining o.window = (soughtCut o remaining).toNat := by omega
    simp [not_severs_at_boundary (hplain.plain b hb) hplace, hbroken]
  · rw [hcut, if_neg (by omega), heq, Int.toNat_natCast]
    simp [hunbroken]

/-- A low surrogate of a well-formed text is not preceded by another. -/
theorem not_severs_before {s : JsString} (hs : wellFormed s = true) {k : Nat}
    (h : severs s (k + 1) = true) : severs s k = false := by
  obtain ⟨y, hy, hlow⟩ := (Option.any_eq_true ..).1 h
  have hk : k + 1 < s.length := (List.getElem?_eq_some_iff.1 hy).1
  have hx : s[k]? = some s[k] := List.getElem?_eq_getElem (by omega)
  have hsplit : s = s.take k ++ s[k] :: y :: s.drop (k + 2) := by
    rw [← (List.getElem?_eq_some_iff.1 hy).2, ← List.drop_eq_getElem_cons hk,
      ← List.drop_eq_getElem_cons (by omega), List.take_append_drop]
  rw [hsplit] at hs
  have hhigh := isHighSurrogate_before hs hlow
  rw [severs, hx]
  exact isLowSurrogate_of_isHighSurrogate hhigh

theorem guardSurrogate_cases (text : JsString) (k : Nat) :
    (guardSurrogate text k = k ∧ severs text k = false) ∨
      (guardSurrogate text k = (k : Int) - 1 ∧ severs text k = true) := by
  simp only [guardSurrogate, Int.toNat_natCast]
  split
  · have hnone : text[k]? = none := List.getElem?_eq_none (by omega)
    simp [severs, hnone]
  · split
    · exact .inr ⟨rfl, ‹_›⟩
    · exact .inl ⟨rfl, Bool.eq_false_iff.2 ‹_›⟩

/-- With the guard no pass severs a pair. -/
theorem not_severs_of_guarded {o : ChunkTextOptions} (hwindow : 2 ≤ o.window)
    (hplain : o.PlainBoundaries) (hguard : o.surrogateGuard = true) {remaining : JsString}
    (hs : wellFormed remaining = true) : severs remaining (findCut o remaining) = false := by
  have hpos : 0 < soughtCut o remaining := by
    obtain ⟨_, hpos, _⟩ | ⟨_, heq⟩ := soughtCut_cases (by omega) hplain remaining <;> omega
  obtain ⟨k, hk⟩ : ∃ k : Nat, soughtCut o remaining = k :=
    ⟨_, (Int.toNat_of_nonneg (by omega)).symm⟩
  have hcut : findCut o remaining =
      if guardSurrogate remaining k ≤ 0 then o.window else (guardSurrogate remaining k).toNat := by
    rw [← hk]
    simp only [findCut, settleCut, hguard, if_true]
    rfl
  obtain ⟨heq, hkeep⟩ | ⟨heq, hsevers⟩ := guardSurrogate_cases remaining k
  · rwa [hcut, heq, if_neg (by omega), Int.toNat_natCast]
  · obtain ⟨_, _, b, hb, hplace⟩ | ⟨_, hedge⟩ := soughtCut_cases (by omega) hplain remaining
    · rw [hk] at hplace
      rw [not_severs_at_boundary (hplain.plain b hb) hplace.symm] at hsevers
      cases hsevers
    · obtain ⟨j, rfl⟩ : ∃ j, k = j + 1 := ⟨k - 1, by omega⟩
      rw [hcut, heq, if_neg (by omega)]
      have hj : (((j + 1 : Nat) : Int) - 1).toNat = j := by omega
      rw [hj]
      exact not_severs_before hs hsevers

/-- The passes in which `chunkText` cuts a text. -/
def cutPasses (o : ChunkTextOptions) (text : JsString) : List JsString :=
  if hwindow : 0 < o.window then
    if text.length ≤ o.limit then [] else chunkPasses o hwindow 0 text
  else []

/-- The pass severs a pair: no boundary is accepted, and the pair lies across the window's edge. -/
def EdgePair (o : ChunkTextOptions) (remaining : JsString) : Prop :=
  Unbroken o remaining ∧ severs remaining o.window = true

/-- Every part is well formed. -/
def KeepsCharacters (parts : List JsString) : Prop := ∀ part ∈ parts, wellFormed part = true

section
variable {o : ChunkTextOptions} {text : JsString}

theorem chunkPasses_not_severs (hwindow : 0 < o.window) (hstrip : o.stripLeading.OnlySpace)
    (hcut : ∀ r, wellFormed r = true → severs r (findCut o r) = false) {lastIndex : Nat}
    (hs : wellFormed text = true) :
    ∀ r ∈ chunkPasses o hwindow lastIndex text, severs r (findCut o r) = false := by
  fun_induction chunkPasses o hwindow lastIndex text with
  | case1 lastIndex remaining hlong stripped ih =>
    rw [List.forall_mem_cons]
    exact ⟨hcut _ hs, ih (wellFormed_stripped hstrip hs (hcut _ hs) lastIndex)⟩
  | case2 lastIndex remaining hshort => simp

/-- The parts of a well-formed text, before they are trimmed, keep its characters exactly where no
pass severs one. -/
theorem keepsCharacters_iff (haccepted : o.Accepted) (hstrip : o.stripLeading.OnlySpace)
    (hs : wellFormed text = true) :
    KeepsCharacters (if text.length ≤ o.limit then [text] else chunkLoop o haccepted.1 0 text) ↔
      ∀ r ∈ cutPasses o text, severs r (findCut o r) = false := by
  rw [cutPasses, dif_pos haccepted.1, KeepsCharacters]
  split
  · simp [hs]
  · exact chunkLoop_wellFormed_iff haccepted.1 hstrip hs

/-- Without the guard the parts keep the characters exactly where no pass has a pair at the edge of
an unbroken window. -/
theorem chunkText_keeps_iff (haccepted : o.Accepted) (hstrip : o.stripLeading.OnlySpace)
    (htrim : o.trimParts = false) (hplain : o.PlainBoundaries) (hguard : o.surrogateGuard = false)
    (hs : wellFormed text = true) :
    (∃ parts, chunkText text o = .ok parts ∧ KeepsCharacters parts) ↔
      ∀ r ∈ cutPasses o text, ¬EdgePair o r := by
  have hiff := keepsCharacters_iff haccepted hstrip hs
  have hsevers (r : JsString) : severs r (findCut o r) = false ↔ ¬EdgePair o r := by
    rw [EdgePair, ← severs_iff haccepted.1 hplain hguard, Bool.not_eq_true]
  simp only [hsevers] at hiff
  rw [← hiff]
  constructor
  · rintro ⟨parts, hparts, hkeeps⟩
    obtain ⟨_, rfl⟩ := chunkText_eq_ok.1 hparts
    simpa [finalize, htrim] using hkeeps
  · intro hkeeps
    exact ⟨_, chunkText_eq_ok.2 ⟨haccepted, rfl⟩, by simpa [finalize, htrim] using hkeeps⟩

/-- With the guard the parts keep the characters. -/
theorem chunkText_keeps_of_guarded (haccepted : o.Accepted) (hwindow : 2 ≤ o.window)
    (hstrip : o.stripLeading.OnlySpace) (hplain : o.PlainBoundaries)
    (hguard : o.surrogateGuard = true) (hs : wellFormed text = true) :
    ∃ parts, chunkText text o = .ok parts ∧ KeepsCharacters parts := by
  refine ⟨_, chunkText_eq_ok.2 ⟨haccepted, rfl⟩, ?_⟩
  have hkeeps := (keepsCharacters_iff haccepted hstrip hs).2 (by
    rw [cutPasses, dif_pos haccepted.1]
    split
    · simp
    · exact chunkPasses_not_severs haccepted.1 hstrip
        (fun r hr => not_severs_of_guarded hwindow hplain hguard hr) hs)
  unfold finalize
  split
  · intro part hpart
    obtain ⟨untrimmed, hmem, rfl⟩ := List.mem_map.1 (List.mem_filter.1 hpart).1
    exact wellFormed_trim (hkeeps untrimmed hmem)
  · exact hkeeps

end

end TheokitGateways.Gateway
