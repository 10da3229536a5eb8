import TheokitGateways.Gateway.ChunkCharacters

/-!
# Splitting a text for Telegram

`splitForTelegram` has a loop of its own: a part ends at a blank line or a line,
else at the window's edge, and is then trimmed back to before a markdown marker
that is not closed. A part that ends at such a marker severs no surrogate pair;
one that ends at the edge may (`splitForTelegram_keeps_iff`).
-/

namespace TheokitGateways.Telegram
open Js Gateway

def telegramMaxMessage : Nat := 4096

def safeChunk : Nat := 4000

/-- The markers that come in pairs. -/
def markers : List JsString := [js "**", js "__", js "~~", js "`"]

/-- Occurrences of a needle side by side, the first `skip` units being the rest of one. -/
def countFrom (needle : JsString) : Nat → JsString → Nat
  | _, [] => 0
  | skip + 1, _ :: s => countFrom needle skip s
  | 0, c :: s =>
    if needle.isPrefixOf (c :: s) then 1 + countFrom needle (needle.length - 1) s
    else countFrom needle 0 s

def countOccurrences (haystack needle : JsString) : Nat := countFrom needle 0 haystack

/-- `s.trimEnd()`. -/
def trimEnd (s : JsString) : JsString := (s.reverse.dropWhile isSpace).reverse

/-- Trim back to before the last marker, when it is not closed. -/
def balanceMarker (out m : JsString) : JsString :=
  if countOccurrences out m % 2 = 1 then
    -- it stands somewhere, since it was counted
    trimEnd (out.take (lastIndexOf m out out.length).toNat)
  else out

def balanceMarkdownPairs (chunk : JsString) : JsString := markers.foldl balanceMarker chunk

/-- Where the part ends before it is balanced. -/
def lineBoundary (remaining : JsString) : Nat :=
  let boundary := lastIndexOf (js "\n\n") remaining safeChunk
  let boundary :=
    if 2 * boundary < safeChunk then lastIndexOf (js "\n") remaining safeChunk else boundary
  if 2 * boundary < safeChunk then safeChunk else boundary.toNat

/-- The part a pass takes: the balanced one, unless nothing is left of it. -/
def telegramChunk (remaining : JsString) : JsString :=
  let rawChunk := remaining.take (lineBoundary remaining)
  let balanced := balanceMarkdownPairs rawChunk
  if balanced ≠ [] then balanced else rawChunk

theorem trimEnd_isPrefix (s : JsString) : trimEnd s <+: s := by
  have := List.dropWhile_suffix (p := isSpace) (l := s.reverse)
  rw [← List.reverse_prefix, List.reverse_reverse] at this
  exact this

theorem balanceMarker_isPrefix (out m : JsString) : balanceMarker out m <+: out := by
  unfold balanceMarker
  split
  · exact (trimEnd_isPrefix _).trans (List.take_prefix _ _)
  · exact List.prefix_refl _

theorem foldl_balanceMarker_isPrefix (ms : List JsString) (chunk : JsString) :
    ms.foldl balanceMarker chunk <+: chunk := by
  induction ms generalizing chunk with
  | nil => exact List.prefix_refl _
  | cons m ms ih => exact (ih _).trans (balanceMarker_isPrefix chunk m)

theorem telegramChunk_isPrefix (remaining : JsString) : telegramChunk remaining <+: remaining := by
  simp only [telegramChunk]
  split
  · exact (foldl_balanceMarker_isPrefix _ _).trans (List.take_prefix _ _)
  · exact List.take_prefix _ _

theorem lineBoundary_bounds (remaining : JsString) :
    0 < lineBoundary remaining ∧ lineBoundary remaining ≤ safeChunk := by
  have hblank := lastIndexOf_le (js "\n\n") remaining safeChunk
  have hline := lastIndexOf_le (js "\n") remaining safeChunk
  have hsafe : safeChunk = 4000 := rfl
  simp only [lineBoundary]
  split
  · split <;> omega
  · omega

theorem telegramChunk_pos {remaining : JsString} (h : remaining ≠ []) :
    0 < (telegramChunk remaining).length := by
  have hbounds := lineBoundary_bounds remaining
  have hpos := List.length_pos_iff.2 h
  simp only [telegramChunk]
  split
  · exact List.length_pos_iff.2 ‹_›
  · rw [List.length_take]
    omega

/-- The loop. Every pass takes a unit or more, so that it ends. -/
def telegramLoop (remaining : JsString) : List JsString :=
  if remaining = [] then []
  else if remaining.length ≤ safeChunk then [remaining]
  else
    let chunk := telegramChunk remaining
    chunk :: telegramLoop ((remaining.drop chunk.length).dropWhile (· == unit '\n'))
termination_by remaining.length
decreasing_by
  have hne : remaining ≠ [] := ‹_›
  have hpos := telegramChunk_pos hne
  have hrest := (List.dropWhile_suffix (l := remaining.drop (telegramChunk remaining).length)
    (· == unit '\n')).length_le
  have hlen := List.length_pos_iff.2 hne
  rw [List.length_drop] at hrest
  omega

def splitForTelegram (text : JsString) : List JsString :=
  if text.length ≤ telegramMaxMessage then [text] else telegramLoop text

/-- A part that was cut off a text before a unit that is no low surrogate. -/
def CutPlainly (part whole : JsString) : Prop :=
  part = whole ∨ ∃ c rest, whole = part ++ c :: rest ∧ isLowSurrogate c = false

theorem CutPlainly.trans {a b c : JsString} (hab : CutPlainly a b) (hbc : CutPlainly b c) :
    CutPlainly a c := by
  obtain rfl | ⟨u, rest, rfl, hu⟩ := hab
  · exact hbc
  · obtain rfl | ⟨v, rest', rfl, hv⟩ := hbc
    · exact .inr ⟨u, rest, rfl, hu⟩
    · exact .inr ⟨u, rest ++ v :: rest', by simp, hu⟩

theorem trimEnd_append (s : JsString) : ∃ w, s = trimEnd s ++ w ∧ w.all isSpace = true := by
  refine ⟨(s.reverse.takeWhile isSpace).reverse, ?_, ?_⟩
  · rw [trimEnd, ← List.reverse_append, List.takeWhile_append_dropWhile, List.reverse_reverse]
  · rw [List.all_reverse]
    exact List.all_takeWhile

theorem isLowSurrogate_of_isSpace {c : UInt16} (h : isSpace c = true) :
    isLowSurrogate c = false := by
  have := isSurrogate_of_isSpace h
  rw [isSurrogate, Bool.or_eq_false_iff] at this
  exact this.2

/-- A marker ends a part before itself or before white space, or leaves nothing of it. -/
theorem balanceMarker_cases (out : JsString) {m : JsString}
    (hm : ∃ c t, m = c :: t ∧ isLowSurrogate c = false) :
    balanceMarker out m = [] ∨ CutPlainly (balanceMarker out m) out := by
  unfold balanceMarker
  split
  · obtain ⟨c, t, rfl, hc⟩ := hm
    by_cases hfound : 0 ≤ lastIndexOf (c :: t) out out.length
    · obtain ⟨k, hk⟩ : ∃ k : Nat, lastIndexOf (c :: t) out out.length = k :=
        ⟨_, (Int.toNat_of_nonneg hfound).symm⟩
      obtain ⟨rest, hrest⟩ := prefix_drop_lastFrom hk
      rw [hk, Int.toNat_natCast]
      have htake : CutPlainly (out.take k) out :=
        .inr ⟨c, t ++ rest, by rw [← List.cons_append, hrest, List.take_append_drop], hc⟩
      obtain ⟨w, hw, hspace⟩ := trimEnd_append (out.take k)
      cases w with
      | nil =>
        rw [List.append_nil] at hw
        rw [← hw]
        exact .inr htake
      | cons d w =>
        have hd : isSpace d = true := List.all_eq_true.1 hspace d List.mem_cons_self
        exact .inr (CutPlainly.trans (.inr ⟨d, w, hw, isLowSurrogate_of_isSpace hd⟩) htake)
    · rw [Int.toNat_of_nonpos (by omega)]
      exact .inl rfl
  · exact .inr (.inl rfl)

theorem foldl_balanceMarker_cases {ms : List JsString}
    (hms : ∀ m ∈ ms, ∃ c t, m = c :: t ∧ isLowSurrogate c = false) (chunk : JsString) :
    ms.foldl balanceMarker chunk = [] ∨ CutPlainly (ms.foldl balanceMarker chunk) chunk := by
  induction ms generalizing chunk with
  | nil => exact .inr (.inl rfl)
  | cons m ms ih =>
    rw [List.foldl_cons]
    obtain hnil | hrest := ih (fun m' hm' => hms m' (List.mem_cons_of_mem _ hm'))
      (balanceMarker chunk m)
    · exact .inl hnil
    · obtain hnil | hcut := balanceMarker_cases chunk (hms m List.mem_cons_self)
      · have hprefix := foldl_balanceMarker_isPrefix ms (balanceMarker chunk m)
        rw [hnil] at hprefix ⊢
        exact .inl (List.prefix_nil.1 hprefix)
      · exact .inr (hrest.trans hcut)

theorem markers_plain : ∀ m ∈ markers, ∃ c t, m = c :: t ∧ isLowSurrogate c = false := by
  intro m hm
  simp only [markers, List.mem_cons, List.not_mem_nil, or_false] at hm
  obtain rfl | rfl | rfl | rfl := hm
  all_goals exact ⟨_, _, rfl, rfl⟩

/-- A pass severs a pair: the window has no line break in its second half, the pair lies across its
edge, and balancing trims nothing, or would leave nothing. -/
def TelegramEdgePair (remaining : JsString) : Prop :=
  (2 * lastIndexOf (js "\n\n") remaining safeChunk < safeChunk ∧
    2 * lastIndexOf (js "\n") remaining safeChunk < safeChunk) ∧
  severs remaining safeChunk = true ∧
  (balanceMarkdownPairs (remaining.take safeChunk) = remaining.take safeChunk ∨
    balanceMarkdownPairs (remaining.take safeChunk) = [])

/-- A part ends before a line break, or at the edge of a window without one. -/
theorem lineBoundary_cases (remaining : JsString) :
    severs remaining (lineBoundary remaining) = false ∧
        ¬(2 * lastIndexOf (js "\n\n") remaining safeChunk < safeChunk ∧
          2 * lastIndexOf (js "\n") remaining safeChunk < safeChunk) ∨
      (2 * lastIndexOf (js "\n\n") remaining safeChunk < safeChunk ∧
          2 * lastIndexOf (js "\n") remaining safeChunk < safeChunk) ∧
        lineBoundary remaining = safeChunk := by
  have hplain : isLowSurrogate (unit '\n') = false := by decide
  by_cases hblank : 2 * lastIndexOf (js "\n\n") remaining safeChunk < safeChunk
  · by_cases hline : 2 * lastIndexOf (js "\n") remaining safeChunk < safeChunk
    · exact .inr ⟨⟨hblank, hline⟩, by simp [lineBoundary, hblank, hline]⟩
    · have hplace : lastIndexOf (js "\n") remaining safeChunk =
          (lastIndexOf (js "\n") remaining safeChunk).toNat := by omega
      refine .inl ⟨?_, fun h => hline h.2⟩
      simpa [lineBoundary, hblank, hline] using
        not_severs_at_boundary ⟨unit '\n', [], rfl, hplain⟩ hplace
  · have hplace : lastIndexOf (js "\n\n") remaining safeChunk =
        (lastIndexOf (js "\n\n") remaining safeChunk).toNat := by omega
    refine .inl ⟨?_, fun h => hblank h.1⟩
    simpa [lineBoundary, hblank] using
      not_severs_at_boundary ⟨unit '\n', js "\n", rfl, hplain⟩ hplace

/-- A part cut off plainly severs nothing. -/
theorem not_severs_of_cut {part rest s : JsString} {c : UInt16} (hc : isLowSurrogate c = false)
    (h : s = part ++ c :: rest) : severs s part.length = false := by
  rw [severs, ← List.head?_drop, h, List.drop_left]
  exact hc

theorem severs_telegramChunk_iff {remaining : JsString} (hlong : safeChunk < remaining.length) :
    severs remaining (telegramChunk remaining).length = true ↔ TelegramEdgePair remaining := by
  have hbounds := lineBoundary_bounds remaining
  have hraw : (remaining.take (lineBoundary remaining)).length = lineBoundary remaining := by
    rw [List.length_take]
    omega
  have hcases : (telegramChunk remaining).length = lineBoundary remaining ∧
        (balanceMarkdownPairs (remaining.take (lineBoundary remaining)) =
            remaining.take (lineBoundary remaining) ∨
          balanceMarkdownPairs (remaining.take (lineBoundary remaining)) = []) ∨
      severs remaining (telegramChunk remaining).length = false ∧
        balanceMarkdownPairs (remaining.take (lineBoundary remaining)) ≠
          remaining.take (lineBoundary remaining) ∧
        balanceMarkdownPairs (remaining.take (lineBoundary remaining)) ≠ [] := by
    by_cases hnil : balanceMarkdownPairs (remaining.take (lineBoundary remaining)) = []
    · exact .inl ⟨by simp only [telegramChunk, hnil, ne_eq, not_true, if_false, hraw], .inr hnil⟩
    · obtain hnil' | hsame | ⟨c, rest, hcut, hc⟩ :=
        foldl_balanceMarker_cases markers_plain (remaining.take (lineBoundary remaining))
      · exact absurd hnil' hnil
      · refine .inl ⟨?_, .inl hsame⟩
        simp only [telegramChunk, ne_eq, hnil, not_false_eq_true, if_true]
        rw [balanceMarkdownPairs, hsame, hraw]
      · refine .inr ⟨?_, fun hsame => ?_, hnil⟩
        · simp only [telegramChunk, ne_eq, hnil, not_false_eq_true, if_true]
          have hwhole : remaining = balanceMarkdownPairs
            (remaining.take (lineBoundary remaining)) ++
              c :: (rest ++ remaining.drop (lineBoundary remaining)) := by
            rw [← List.cons_append, ← List.append_assoc, balanceMarkdownPairs, ← hcut,
              List.take_append_drop]
          exact not_severs_of_cut hc hwhole
        · have := congrArg List.length hcut
          rw [← balanceMarkdownPairs, hsame, List.length_append, List.length_cons] at this
          omega
  unfold TelegramEdgePair
  obtain ⟨hkeep, hbroken⟩ | ⟨hunbroken, hedge⟩ := lineBoundary_cases remaining
  · obtain ⟨hlen, _⟩ | ⟨hsevers, _⟩ := hcases
    · simp [hlen, hkeep, hbroken]
    · simp [hsevers, hbroken]
  · rw [hedge] at hcases
    obtain ⟨hlen, hbalanced⟩ | ⟨hsevers, hne, hnil⟩ := hcases
    · simp [hlen, hunbroken, hbalanced]
    · simp [hsevers, hne, hnil]

/-- What each pass that cuts begins with. -/
def telegramLoopPasses (remaining : JsString) : List JsString :=
  if safeChunk < remaining.length then
    remaining :: telegramLoopPasses
      ((remaining.drop (telegramChunk remaining).length).dropWhile (· == unit '\n'))
  else []
termination_by remaining.length
decreasing_by
  have hne : remaining ≠ [] := List.length_pos_iff.1 (by omega)
  have hpos := telegramChunk_pos hne
  have hrest := (List.dropWhile_suffix (l := remaining.drop (telegramChunk remaining).length)
    (· == unit '\n')).length_le
  rw [List.length_drop] at hrest
  omega

/-- The passes in which `splitForTelegram` cuts a text. -/
def telegramPasses (text : JsString) : List JsString :=
  if text.length ≤ telegramMaxMessage then [] else telegramLoopPasses text

theorem telegramLoop_keeps_iff {remaining : JsString} (hs : wellFormed remaining = true) :
    KeepsCharacters (telegramLoop remaining) ↔
      ∀ r ∈ telegramLoopPasses remaining, ¬TelegramEdgePair r := by
  fun_induction telegramLoop remaining with
  | case1 =>
    rw [telegramLoopPasses, if_neg (by simp)]
    simp [KeepsCharacters]
  | case2 remaining hne hshort =>
    rw [telegramLoopPasses, if_neg (by omega)]
    simp [KeepsCharacters, hs]
  | case3 remaining hne hlong chunk ih =>
    have hlong' : safeChunk < remaining.length := by omega
    have htake : chunk = remaining.take chunk.length :=
      List.prefix_iff_eq_take.1 (telegramChunk_isPrefix remaining)
    rw [telegramLoopPasses, if_pos hlong', KeepsCharacters, List.forall_mem_cons,
      List.forall_mem_cons, ← severs_telegramChunk_iff hlong', Bool.not_eq_true]
    have hchunk : wellFormed chunk = true ↔ severs remaining chunk.length = false := by
      have := wellFormed_take_iff hs chunk.length
      rwa [← htake] at this
    rw [hchunk]
    refine and_congr_right fun hcut => ih ?_
    have hstripped := wellFormed_stripped StripLeading.newlines_onlySpace hs hcut 0
    simpa only [StripLeading.newlines, StripLeading.run] using hstripped

theorem splitForTelegram_keeps_iff {text : JsString} (hs : wellFormed text = true) :
    KeepsCharacters (splitForTelegram text) ↔ ∀ r ∈ telegramPasses text, ¬TelegramEdgePair r := by
  unfold splitForTelegram telegramPasses
  split
  · simp [KeepsCharacters, hs]
  · exact telegramLoop_keeps_iff hs

end TheokitGateways.Telegram
