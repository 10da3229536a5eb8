import TheokitGateways.Js.Convert
import TheokitGateways.Js.Deletion
import TheokitGateways.Js.Header

/-!
# Inline markers and dialects

`rewriteMarkers` finds the inline markers of a text by one pattern, in one pass, and
gives what they wrap the marker of a dialect, or none. The pass does not look into
what a match wraps: a match that stripping leaves touches the content of one that
was stripped (`strip_spec`).
-/

namespace TheokitGateways.Gateway
open Js

/-- What a dialect has a marker for. -/
inductive Emphasis where
  | bold | italic | strike | code

/-- What each of the four markers becomes; a marker that is missing is dropped. -/
structure Dialect where
  bold : Option JsString := none
  italic : Option JsString := none
  strike : Option JsString := none
  code : Option JsString := none

def Dialect.wrap (d : Dialect) : Emphasis → Option JsString
  | .bold => d.bold
  | .italic => d.italic
  | .strike => d.strike
  | .code => d.code

/-- No marker survives; the content they wrapped does. -/
def strip : Dialect := {}

/-- `\w`. -/
def isWordUnit (c : UInt16) : Bool :=
  (unit 'A' ≤ c && c ≤ unit 'Z') || (unit 'a' ≤ c && c ≤ unit 'z') ||
    (unit '0' ≤ c && c ≤ unit '9') || c = unit '_'

/-- An alternative of the pattern: a marker, the shortest content, the marker again. -/
structure Alternative where
  marker : JsString
  emphasis : Emphasis
  /-- `(?<!…)` before the first marker. -/
  notAfter : UInt16 → Bool := fun _ => false
  /-- `(?!\s)` after the first marker, and `(?<!\s)` before the second. -/
  tight : Bool := false
  /-- `(?!…)` after the second marker. -/
  notBefore : UInt16 → Bool := fun _ => false

/-- `PATTERN`. -/
def pattern : List Alternative :=
  [{ marker := js "**", emphasis := .bold },
    { marker := js "~~", emphasis := .strike },
    { marker := js "*"
      emphasis := .italic
      notAfter := fun c => c = unit '*' || isWordUnit c
      tight := true
      notBefore := fun c => c = unit '*' },
    { marker := js "_"
      emphasis := .italic
      -- `\w` has the underscore
      notAfter := fun c => c = unit '_' || isWordUnit c
      tight := true
      notBefore := isWordUnit },
    { marker := js "`", emphasis := .code }]

theorem marker_ne_nil : ∀ q ∈ pattern, q.marker ≠ [] := by decide

namespace Alternative

/-- The second marker stands at the front of `s`, after a content that ends in `last`. -/
def closes (q : Alternative) (last : UInt16) (s : JsString) : Bool :=
  q.marker.isPrefixOf s && !(q.tight && isSpace last) &&
    !(s.drop q.marker.length).head?.any q.notBefore

/-- The shortest rest of a content that ends in `last` so far, and what follows the match. -/
def close (q : Alternative) (last : UInt16) (s : JsString) : Option (JsString × JsString) :=
  if q.closes last s then some ([], s.drop q.marker.length)
  else
    match s with
    | [] => none
    | c :: s =>
      if isLineTerminator c then none
      else (q.close c s).map fun (content, after) => (c :: content, after)

/-- The content of the match at the front of a text that follows `prev`, and what follows it. -/
def exec (q : Alternative) (prev : Option UInt16) (s : JsString) : Option (JsString × JsString) :=
  if prev.any q.notAfter then none
  else if !q.marker.isPrefixOf s then none
  else
    match s.drop q.marker.length with
    | [] => none
    | c :: s =>
      if isLineTerminator c || (q.tight && isSpace c) then none
      else (q.close c s).map fun (content, after) => (c :: content, after)

end Alternative

/-- The first alternative that matches at the front of a text, its content and what follows. -/
def execPattern (prev : Option UInt16) (s : JsString) :
    Option (Alternative × JsString × JsString) :=
  pattern.findSome? fun q => (q.exec prev s).map fun found => (q, found)

/-- A unit outside every match, or a match. -/
inductive Segment where
  | plain (c : UInt16)
  | matched (q : Alternative) (content : JsString)

/-- What a segment becomes. -/
def Segment.rewrite (d : Dialect) : Segment → JsString
  | plain c => [c]
  | matched q content =>
    match d.wrap q.emphasis with
    | none => content
    | some wrap => wrap ++ (content ++ wrap)

/-- The alternative matches `w`, between the units at its two sides, with any content that it
admits, be it the shortest or not. -/
def Alternative.Matches (q : Alternative) (prev : Option UInt16) (w : JsString)
    (next : Option UInt16) : Prop :=
  ∃ content, content ≠ [] ∧ w = q.marker ++ (content ++ q.marker) ∧
    (∀ c ∈ content, isLineTerminator c = false) ∧
    (q.tight = true →
      content.head?.any isSpace = false ∧ content.getLast?.any isSpace = false) ∧
    prev.any q.notAfter = false ∧ next.any q.notBefore = false

section Exec

variable {q : Alternative} {last c : UInt16} {prev : Option UInt16}
  {s content after : JsString}

theorem Alternative.closes_iff :
    q.closes last s = true ↔
      ∃ after, s = q.marker ++ after ∧ ¬(q.tight = true ∧ isSpace last = true) ∧
        after.head?.any q.notBefore = false := by
  constructor
  · intro h
    simp only [closes, Bool.and_eq_true, Bool.not_eq_true', Bool.and_eq_false_iff] at h
    obtain ⟨⟨hmarker, htight⟩, hbefore⟩ := h
    obtain ⟨after, rfl⟩ := List.isPrefixOf_iff_prefix.1 hmarker
    rw [List.drop_left] at hbefore
    refine ⟨after, rfl, fun ⟨ht, hs⟩ => ?_, hbefore⟩
    simp [ht, hs] at htight
  · rintro ⟨after, rfl, htight, hbefore⟩
    have hmarker : q.marker.isPrefixOf (q.marker ++ after) = true :=
      List.isPrefixOf_iff_prefix.2 (List.prefix_append _ _)
    have hspace : (q.tight && isSpace last) = false :=
      Bool.eq_false_iff.2 fun h => htight (Bool.and_eq_true_iff.1 h)
    simp [closes, hmarker, hspace, hbefore]

/-- What `close` finds: the marker at the end of a content that the alternative admits. -/
theorem Alternative.of_close (h : q.close last s = some (content, after)) :
    s = content ++ (q.marker ++ after) ∧ (∀ c ∈ content, isLineTerminator c = false) ∧
      (q.tight = true → isSpace ((last :: content).getLast (List.cons_ne_nil _ _)) = false) ∧
      after.head?.any q.notBefore = false := by
  induction s generalizing last content with
  | nil =>
    rw [close] at h
    split at h
    · rename_i hcloses
      cases h
      obtain ⟨after, hs, htight, hbefore⟩ := closes_iff.1 hcloses
      obtain ⟨hmarker, rfl⟩ := List.append_eq_nil_iff.1 hs.symm
      refine ⟨by simp [hmarker], by simp, fun ht => ?_, by simp⟩
      exact Bool.eq_false_iff.2 fun hspace => htight ⟨ht, hspace⟩
    · cases h
  | cons c s ih =>
    rw [close] at h
    split at h
    · rename_i hcloses
      cases h
      obtain ⟨after, hs, htight, hbefore⟩ := closes_iff.1 hcloses
      rw [hs, List.drop_left]
      refine ⟨rfl, by simp, fun ht => ?_, hbefore⟩
      exact Bool.eq_false_iff.2 fun hspace => htight ⟨ht, hspace⟩
    · split at h
      · cases h
      · rename_i hline
        obtain ⟨⟨rest, after'⟩, hclose, heq⟩ := Option.map_eq_some_iff.1 h
        cases heq
        obtain ⟨hs, hlines, htight, hbefore⟩ := ih hclose
        refine ⟨by rw [hs, List.cons_append], ?_, htight, hbefore⟩
        exact List.forall_mem_cons.2 ⟨Bool.eq_false_iff.2 hline, hlines⟩

theorem Alternative.close_isSome (hlines : ∀ c ∈ content, isLineTerminator c = false)
    (htight : q.tight = true →
      isSpace ((last :: content).getLast (List.cons_ne_nil _ _)) = false)
    (hbefore : after.head?.any q.notBefore = false) :
    (q.close last (content ++ (q.marker ++ after))).isSome = true := by
  induction content generalizing last with
  | nil =>
    have hcloses : q.closes last (q.marker ++ after) = true :=
      closes_iff.2 ⟨after, rfl,
        fun ⟨ht, hspace⟩ => Bool.false_ne_true ((htight ht).symm.trans hspace), hbefore⟩
    rw [List.nil_append, close.eq_def, if_pos hcloses]
    rfl
  | cons c content ih =>
    rw [List.forall_mem_cons] at hlines
    rw [List.cons_append, close]
    split
    · rfl
    · simpa [hlines.1] using ih hlines.2 htight

theorem Alternative.of_exec (h : q.exec prev s = some (content, after)) :
    s = q.marker ++ (content ++ (q.marker ++ after)) ∧ content ≠ [] ∧
      q.Matches prev (q.marker ++ (content ++ q.marker)) after.head? := by
  unfold exec at h
  split at h
  · cases h
  · rename_i hprev
    split at h
    · cases h
    · rename_i hmarker
      rw [Bool.not_eq_true, Bool.not_eq_false'] at hmarker
      obtain ⟨tail, rfl⟩ := List.isPrefixOf_iff_prefix.1 hmarker
      rw [List.drop_left] at h
      split at h
      · cases h
      · rename_i c tail
        split at h
        · cases h
        · rename_i hc
          rw [Bool.or_eq_true, not_or] at hc
          obtain ⟨⟨rest, after'⟩, hclose, heq⟩ := Option.map_eq_some_iff.1 h
          cases heq
          obtain ⟨htail, hlines, htight, hbefore⟩ := of_close hclose
          refine ⟨by rw [htail]; rfl, List.cons_ne_nil _ _, c :: rest, List.cons_ne_nil _ _, rfl,
            List.forall_mem_cons.2 ⟨Bool.eq_false_iff.2 hc.1, hlines⟩, fun ht => ⟨?_, ?_⟩,
            Bool.eq_false_iff.2 hprev, hbefore⟩
          · have hspace := hc.2
            rw [ht, Bool.true_and] at hspace
            exact Bool.eq_false_iff.2 hspace
          · rw [List.getLast?_eq_some_getLast (List.cons_ne_nil _ _)]
            exact htight ht

theorem Alternative.exec_isSome {w rest : JsString} (h : q.Matches prev w rest.head?) :
    (q.exec prev (w ++ rest)).isSome = true := by
  obtain ⟨content, hne, rfl, hlines, htight, hprev, hbefore⟩ := h
  obtain ⟨c, content, rfl⟩ := List.exists_cons_of_ne_nil hne
  rw [List.forall_mem_cons] at hlines
  have hmarker : q.marker.isPrefixOf (q.marker ++ (c :: content ++ q.marker) ++ rest) = true :=
    List.isPrefixOf_iff_prefix.2 ⟨c :: content ++ q.marker ++ rest, by simp⟩
  have hspace : (q.tight && isSpace c) = false :=
    Bool.eq_false_iff.2 fun hand => by
      obtain ⟨ht, hs⟩ := Bool.and_eq_true_iff.1 hand
      simpa [hs] using (htight ht).1
  have hlast : q.tight = true →
      isSpace ((c :: content).getLast (List.cons_ne_nil _ _)) = false := by
    intro ht
    have hlast := (htight ht).2
    rwa [List.getLast?_eq_some_getLast (List.cons_ne_nil _ _)] at hlast
  rw [exec, hprev, if_neg Bool.false_ne_true, hmarker, if_neg (by decide), List.append_assoc,
    List.drop_left]
  simpa [hlines.1, hspace] using close_isSome hlines.2 hlast hbefore

theorem execPattern_eq_some (h : execPattern prev s = some (q, content, after)) :
    q ∈ pattern ∧ q.exec prev s = some (content, after) := by
  obtain ⟨q', hq, h⟩ := List.exists_of_findSome?_eq_some h
  obtain ⟨found, hexec, heq⟩ := Option.map_eq_some_iff.1 h
  cases heq
  exact ⟨hq, hexec⟩

theorem length_after_execPattern (h : execPattern prev s = some (q, content, after)) :
    after.length < s.length := by
  obtain ⟨hs, hne, _⟩ := Alternative.of_exec (execPattern_eq_some h).2
  have hpos := List.length_pos_iff.2 hne
  rw [hs]
  simp only [List.length_append]
  omega

theorem not_matches_of_execPattern_eq_none {w rest : JsString}
    (h : execPattern prev (w ++ rest) = none) (hq : q ∈ pattern) :
    ¬q.Matches prev w rest.head? := by
  intro hmatches
  have hnone := List.findSome?_eq_none_iff.1 h q hq
  have hsome := Alternative.exec_isSome hmatches
  rw [Option.map_eq_none_iff.1 hnone] at hsome
  cases hsome

end Exec

/-- The matches of the pattern, leftmost first and none over another, and the units between them. -/
def segments (prev : Option UInt16) (s : JsString) : List Segment :=
  match s with
  | [] => []
  | c :: rest =>
    match h : execPattern prev (c :: rest) with
    | none => .plain c :: segments (some c) rest
    | some (q, content, after) =>
      have : after.length < (c :: rest).length := length_after_execPattern h
      .matched q content :: segments q.marker.getLast? after
termination_by s.length
decreasing_by
  · exact Nat.lt_succ_self _
  · exact this

/-- `text.replace(PATTERN, …)`. -/
def rewriteMarkers (text : JsString) (dialect : Dialect) : JsString :=
  (segments none text).flatMap (Segment.rewrite dialect)

example : rewriteMarkers (js "**b** _e_ ~~s~~ `c`") strip = js "b e s c" := by decide +kernel

namespace Segment

/-- What a segment is in the text. -/
def source : Segment → JsString
  | plain c => [c]
  | matched q content => q.marker ++ (content ++ q.marker)

/-- The last unit of a segment. -/
def last : Segment → Option UInt16
  | plain c => some c
  | matched q _ => q.marker.getLast?

/-- The units that stripping leaves of a segment, each with whether a match wrapped it. -/
def stripped : Segment → List (UInt16 × Bool)
  | plain c => [(c, false)]
  | matched _ content => content.map fun c => (c, true)

/-- A match has one of the alternatives, and a content. -/
def Sound : Segment → Prop
  | plain _ => True
  | matched q content => q ∈ pattern ∧ content ≠ []

@[simp] theorem rewrite_plain (d : Dialect) (c : UInt16) : (plain c).rewrite d = [c] := rfl

@[simp] theorem rewrite_strip_matched (q : Alternative) (content : JsString) :
    (matched q content).rewrite strip = content := by
  cases h : q.emphasis <;> simp [rewrite, strip, Dialect.wrap, h]

theorem map_fst_stripped (g : Segment) : g.stripped.map Prod.fst = g.rewrite strip := by
  cases g with
  | plain c => rfl
  | matched q content => simp [stripped, Function.comp_def]

theorem exists_last {g : Segment} (h : g.Sound) : ∃ c, g.last = some c := by
  cases g with
  | plain c => exact ⟨c, rfl⟩
  | matched q content => exact ⟨_, List.getLast?_eq_some_getLast (marker_ne_nil q h.1)⟩

theorem getLast?_source {g : Segment} (h : g.Sound) : g.source.getLast? = g.last := by
  cases g with
  | plain c => rfl
  | matched q content =>
    have hlast := List.getLast?_eq_some_getLast (marker_ne_nil q h.1)
    simp [source, last, hlast]

theorem deletesOnly_source {g : Segment} (h : g.Sound) :
    DeletesOnly (js "*~_`") g.source (g.rewrite strip) := by
  cases g with
  | plain c => exact deletesOnly_refl _ _
  | matched q content =>
    have hall : pattern.all (fun q => q.marker.all (· ∈ js "*~_`")) = true := by decide
    simp only [List.all_eq_true, decide_eq_true_eq] at hall
    have hmarker := deletesOnly_marker (hall q h.1)
    simpa [source] using hmarker.append ((deletesOnly_refl _ content).append hmarker)

end Segment

section Segments

variable {prev : Option UInt16} {s : JsString} {g : Segment} {gs X Y : List Segment}

/-- The units that stripping leaves of a text, each with whether a match wrapped it. -/
def stripped (text : JsString) : List (UInt16 × Bool) :=
  (segments none text).flatMap Segment.stripped

theorem map_fst_stripped (text : JsString) :
    (stripped text).map Prod.fst = rewriteMarkers text strip := by
  simp only [stripped, rewriteMarkers, List.map_flatMap, Segment.map_fst_stripped]

theorem segments_eq_nil_iff : segments prev s = [] ↔ s = [] := by
  fun_cases segments prev s <;> simp

/-- How the pass takes its first segment. -/
theorem segments_eq_cons (h : segments prev s = g :: gs) :
    (∃ c rest, s = c :: rest ∧ g = .plain c ∧ execPattern prev s = none ∧
      segments g.last rest = gs) ∨
    (∃ q content after, g = .matched q content ∧
      execPattern prev s = some (q, content, after) ∧ segments g.last after = gs) := by
  fun_cases segments prev s with
  | case1 => rw [segments] at h; cases h
  | case2 c rest hexec =>
    rw [segments] at h
    split at h
    · cases h
      exact .inl ⟨c, rest, rfl, rfl, hexec, rfl⟩
    · simp_all
  | case3 c rest q content after hexec _ =>
    rw [segments] at h
    split at h
    · simp_all
    · rename_i q' content' after' hexec'
      cases hexec.symm.trans hexec'
      cases h
      exact .inr ⟨q, content, after, rfl, hexec, rfl⟩

theorem sound_of_mem_segments (h : g ∈ segments prev s) : g.Sound := by
  fun_induction segments prev s with
  | case1 => cases h
  | case2 c rest prev hexec ih =>
    obtain rfl | h := List.mem_cons.1 h
    · trivial
    · exact ih h
  | case3 c rest prev q content after hexec _ ih =>
    obtain rfl | h := List.mem_cons.1 h
    · obtain ⟨hq, hexec⟩ := execPattern_eq_some hexec
      exact ⟨hq, (Alternative.of_exec hexec).2.1⟩
    · exact ih h

/-- The unit before what follows segments. -/
def lastUnit (prev : Option UInt16) (X : List Segment) : Option UInt16 :=
  (X.getLast?.map Segment.last).getD prev

theorem segments_eq_append (h : segments prev s = X ++ Y) :
    ∃ rest, s = X.flatMap Segment.source ++ rest ∧ segments (lastUnit prev X) rest = Y := by
  induction X generalizing prev s with
  | nil => exact ⟨s, rfl, h⟩
  | cons g X ih =>
    have hlast : lastUnit g.last X = lastUnit prev (g :: X) := by
      cases X <;> simp [lastUnit, List.getLast?_cons]
    obtain ⟨c, rest, rfl, rfl, _, hrest⟩ | ⟨q, content, after, rfl, hexec, hafter⟩ :=
      segments_eq_cons h
    · obtain ⟨rest, rfl, hY⟩ := ih hrest
      exact ⟨rest, rfl, hlast ▸ hY⟩
    · obtain ⟨rest, rfl, hY⟩ := ih hafter
      obtain ⟨rfl, _⟩ := Alternative.of_exec (execPattern_eq_some hexec).2
      exact ⟨rest, by simp [Segment.source], hlast ▸ hY⟩

theorem flatMap_source (prev : Option UInt16) (s : JsString) :
    (segments prev s).flatMap Segment.source = s := by
  obtain ⟨rest, hs, hrest⟩ := segments_eq_append (List.append_nil (segments prev s)).symm
  rw [segments_eq_nil_iff] at hrest
  rw [hrest, List.append_nil] at hs
  exact hs.symm

theorem lastUnit_none_eq_getLast? (hX : ∀ g ∈ X, g.Sound) :
    lastUnit none X = (X.flatMap Segment.source).getLast? := by
  obtain rfl | ⟨X, g, rfl⟩ := X.eq_nil_or_concat
  · rfl
  · have hg := hX g (by simp)
    obtain ⟨c, hc⟩ := Segment.exists_last hg
    simp [lastUnit, List.getLast?_append, Segment.getLast?_source hg, hc]

/-- What the pass takes is a match in the text. -/
theorem matches_of_mem_segments {q : Alternative} {content : JsString}
    (h : .matched q content ∈ segments none s) :
    ∃ a w b, q ∈ pattern ∧ s = a ++ (w ++ b) ∧ q.Matches a.getLast? w b.head? := by
  obtain ⟨X, Y, hsplit⟩ := List.append_of_mem h
  obtain ⟨rest, hs, hrest⟩ := segments_eq_append hsplit
  have hX : ∀ g ∈ X, g.Sound := fun g hg =>
    sound_of_mem_segments (hsplit ▸ List.mem_append_left _ hg)
  obtain ⟨_, _, _, hplain, _⟩ | ⟨q', content', after, heq, hexec, _⟩ := segments_eq_cons hrest
  · cases hplain
  · cases heq
    obtain ⟨hq, hexec⟩ := execPattern_eq_some hexec
    obtain ⟨rfl, _, hmatches⟩ := Alternative.of_exec hexec
    rw [lastUnit_none_eq_getLast? hX] at hmatches
    exact ⟨X.flatMap Segment.source, _, after, hq, by rw [hs]; simp, hmatches⟩

theorem rewriteMarkers_eq_self {d : Dialect} (h : ∀ g ∈ segments none s, ∃ c, g = .plain c) :
    rewriteMarkers s d = s := by
  calc rewriteMarkers s d = (segments none s).flatMap Segment.source := by
        have hsame : ∀ g ∈ segments none s, g.rewrite d = g.source := by
          intro g hg
          obtain ⟨c, rfl⟩ := h g hg
          rfl
        rw [rewriteMarkers, List.flatMap_def, List.flatMap_def, List.map_congr_left hsame]
    _ = s := flatMap_source none s

/-- Units that no match wrapped are segments of their own, wherever they stand. -/
theorem exists_plain_of_infix {A W B : List (UInt16 × Bool)}
    (h : gs.flatMap Segment.stripped = A ++ (W ++ B)) (hne : W ≠ [])
    (hW : ∀ u ∈ W, u.2 = false) (hgs : ∀ g ∈ gs, g.Sound) :
    ∃ X Y, gs = X ++ (W.map (fun u => Segment.plain u.1) ++ Y) ∧
      X.flatMap Segment.stripped = A ∧ Y.flatMap Segment.stripped = B := by
  refine infix_of_flatMap (fun g hg => ?_) (fun u hu g hmem => ?_) hne h
  · cases g with
    | plain c => exact List.cons_ne_nil _ _
    | matched q content => simpa [Segment.stripped] using (hgs _ hg).2
  · cases g with
    | plain c =>
      cases List.mem_singleton.1 hmem
      exact ⟨rfl, rfl⟩
    | matched q content =>
      obtain ⟨c, _, rfl⟩ := List.mem_map.1 hmem
      cases hW _ hu

theorem lastUnit_eq_of_stripped (hX : ∀ g ∈ X, g.Sound)
    (h : (X.flatMap Segment.stripped).getLast?.any Prod.snd = false) :
    lastUnit none X = (X.flatMap Segment.stripped).getLast?.map Prod.fst := by
  obtain rfl | ⟨X, g, rfl⟩ := X.eq_nil_or_concat
  · rfl
  · cases g with
    | plain c => simp [lastUnit, Segment.last, Segment.stripped]
    | matched q content =>
      have hne : content ≠ [] := (hX (.matched q content) (by simp)).2
      have hlast := List.getLast?_eq_some_getLast hne
      simp [Segment.stripped, hlast] at h

theorem head?_eq_of_stripped
    (h : ((segments prev s).flatMap Segment.stripped).head?.any Prod.snd = false) :
    s.head? = ((segments prev s).flatMap Segment.stripped).head?.map Prod.fst := by
  cases hgs : segments prev s with
  | nil => rw [segments_eq_nil_iff.1 hgs]; rfl
  | cons g gs =>
    have hsound : g.Sound := sound_of_mem_segments (hgs ▸ List.mem_cons_self)
    rw [hgs] at h
    obtain ⟨c, rest, rfl, rfl, _⟩ | ⟨q, content, after, rfl, _⟩ := segments_eq_cons hgs
    · rfl
    · obtain ⟨c, content, rfl⟩ := List.exists_cons_of_ne_nil hsound.2
      simp [Segment.stripped] at h

/-- No alternative matches where neither the match nor a unit beside it was wrapped: the pass
would have taken it. -/
theorem not_matches_of_unwrapped {text : JsString} {A W B : List (UInt16 × Bool)}
    {q : Alternative} (h : stripped text = A ++ (W ++ B)) (hq : q ∈ pattern)
    (hA : A.getLast?.any Prod.snd = false) (hW : ∀ u ∈ W, u.2 = false)
    (hB : B.head?.any Prod.snd = false) :
    ¬q.Matches (A.getLast?.map Prod.fst) (W.map Prod.fst) (B.head?.map Prod.fst) := by
  intro hmatches
  have hsound : ∀ g ∈ segments none text, g.Sound := fun g => sound_of_mem_segments
  have hne : W ≠ [] := by
    rintro rfl
    obtain ⟨content, hne, hnil, _⟩ := hmatches
    simp_all
  obtain ⟨X, Y, hgs, rfl, rfl⟩ := exists_plain_of_infix h hne hW hsound
  have hX : ∀ g ∈ X, g.Sound := fun g hg => hsound g (hgs ▸ List.mem_append_left _ hg)
  obtain ⟨rest, _, hrest⟩ := segments_eq_append hgs
  obtain ⟨after, hsplit, rfl⟩ := segments_eq_append hrest
  have hsource : (W.map fun u => Segment.plain u.1).flatMap Segment.source = W.map Prod.fst := by
    rw [List.flatMap_map]
    exact List.map_eq_flatMap.symm
  rw [hsource] at hsplit
  rw [← lastUnit_eq_of_stripped hX hA, ← head?_eq_of_stripped hB] at hmatches
  obtain ⟨u, W, rfl⟩ := List.exists_cons_of_ne_nil hne
  obtain ⟨_, _, _, _, hnone, _⟩ | ⟨_, _, _, heq, _⟩ := segments_eq_cons hrest
  · rw [hsplit] at hnone
    exact not_matches_of_execPattern_eq_none hnone hq hmatches
  · cases heq

theorem deletesOnly_of_sound (h : ∀ g ∈ gs, g.Sound) :
    DeletesOnly (js "*~_`") (gs.flatMap Segment.source) (gs.flatMap (Segment.rewrite strip)) := by
  induction gs with
  | nil => exact deletesOnly_nil _
  | cons g gs ih =>
    obtain ⟨hg, hgs⟩ := List.forall_mem_cons.1 h
    exact (Segment.deletesOnly_source hg).append (ih hgs)

/-- A stretch that is not free of wrapped units, the two beside it included, has one in reach. -/
theorem exists_wrapped_of_not_unwrapped {A W B : List (UInt16 × Bool)}
    (h : ¬(A.getLast?.any Prod.snd = false ∧ (∀ u ∈ W, u.2 = false) ∧
      B.head?.any Prod.snd = false)) :
    ∃ i c, (A ++ (W ++ B))[i]? = some (c, true) ∧ A.length ≤ i + 1 ∧
      i ≤ A.length + W.length := by
  by_cases hA : A.getLast?.any Prod.snd = true
  · obtain ⟨⟨c, flag⟩, hlast, hflag⟩ := (Option.any_eq_true _ _).1 hA
    cases hflag
    obtain ⟨A, rfl⟩ := List.getLast?_eq_some_iff.1 hlast
    refine ⟨A.length, c, by simp, by simp, ?_⟩
    rw [List.length_append]
    omega
  by_cases hB : B.head?.any Prod.snd = true
  · obtain ⟨⟨c, flag⟩, hhead, hflag⟩ := (Option.any_eq_true _ _).1 hB
    cases hflag
    obtain ⟨B, rfl⟩ := List.head?_eq_some_iff.1 hhead
    refine ⟨(A ++ W).length, c, ?_, ?_, Nat.le_of_eq List.length_append⟩
    · rw [← List.append_assoc, List.getElem?_append_right (Nat.le_refl _), Nat.sub_self]
      rfl
    · rw [List.length_append]
      omega
  by_cases hW : ∃ u ∈ W, u.2 = true
  · obtain ⟨⟨c, flag⟩, hmem, hflag⟩ := hW
    cases hflag
    obtain ⟨W, W', rfl⟩ := List.append_of_mem hmem
    refine ⟨(A ++ W).length, c, ?_, ?_, ?_⟩
    · rw [List.append_assoc, ← List.append_assoc, List.getElem?_append_right (Nat.le_refl _),
        Nat.sub_self]
      rfl
    all_goals
      simp only [List.length_append]
      omega
  · refine absurd ⟨Bool.eq_false_iff.2 hA, fun u hu => Bool.eq_false_iff.2 fun hflag => ?_,
      Bool.eq_false_iff.2 hB⟩ h
    exact hW ⟨u, hu, hflag⟩

end Segments

/-- Stripping drops marker characters only, and what matches in what it leaves contains, or
stands next to, a unit that a match of the text wrapped. A text in which nothing matches it leaves
as it is. -/
theorem strip_spec (text : JsString) :
    DeletesOnly (js "*~_`") text (rewriteMarkers text strip) ∧
      (stripped text).map Prod.fst = rewriteMarkers text strip ∧
      (∀ q ∈ pattern, ∀ a w b, rewriteMarkers text strip = a ++ (w ++ b) →
        q.Matches a.getLast? w b.head? →
        ∃ i c, (stripped text)[i]? = some (c, true) ∧ a.length ≤ i + 1 ∧
          i ≤ a.length + w.length) ∧
      ((∀ q ∈ pattern, ∀ a w b, text = a ++ (w ++ b) → ¬q.Matches a.getLast? w b.head?) →
        rewriteMarkers text strip = text) := by
  refine ⟨?_, map_fst_stripped text, ?_, ?_⟩
  · have hsound : ∀ g ∈ segments none text, g.Sound := fun g => sound_of_mem_segments
    have hdeletes := deletesOnly_of_sound hsound
    rwa [flatMap_source] at hdeletes
  · intro q hq a w b hout hmatches
    rw [← map_fst_stripped] at hout
    obtain ⟨A, WB, hunits, rfl, hWB⟩ := List.map_eq_append_iff.1 hout
    obtain ⟨W, B, rfl, rfl, rfl⟩ := List.map_eq_append_iff.1 hWB
    rw [List.getLast?_map, List.head?_map] at hmatches
    rw [hunits, List.length_map, List.length_map]
    refine exists_wrapped_of_not_unwrapped fun ⟨hA, hW, hB⟩ => ?_
    exact not_matches_of_unwrapped hunits hq hA hW hB hmatches
  · intro hnone
    refine rewriteMarkers_eq_self fun g hg => ?_
    cases g with
    | plain c => exact ⟨c, rfl⟩
    | matched q content =>
      obtain ⟨a, w, b, hq, htext, hmatches⟩ := matches_of_mem_segments hg
      exact absurd hmatches (hnone q hq a w b htext)

/-- Inline code keeps the markers in it, and they are markers in what is left. -/
theorem code_keeps_markers :
    rewriteMarkers (js "`**d**`") strip = js "**d**" ∧
      rewriteMarkers (js "**d**") strip = js "d" ∧
      ¬∀ text, ∀ q ∈ pattern, ∀ a w b, rewriteMarkers text strip = a ++ (w ++ b) →
        ¬q.Matches a.getLast? w b.head? := by
  have hcode : rewriteMarkers (js "`**d**`") strip = js "**d**" := by decide +kernel
  refine ⟨hcode, by decide +kernel, fun h => ?_⟩
  have hline : ∀ c ∈ js "d", isLineTerminator c = false := forall_mem_of_all rfl
  refine h (js "`**d**`") _ List.mem_cons_self [] (js "**d**") [] hcode ?_
  exact ⟨js "d", by decide, rfl, hline, fun _ => by decide +kernel, rfl, rfl⟩

end TheokitGateways.Gateway
