import TheokitGateways.Js.Leftmost
import TheokitGateways.Signal.TextStyle

/-!
# Where emphasis closes

A marker pairs with the first one like it after it (`Paired`). Of the pairs of a text
the leftmost are read first, each that begins in none that was read, and the text
between the markers of an emphasis is read on its own. `Closes` says so of the places
of a text; the runs of the scan close at these (`closes_iff`).
-/

namespace TheokitGateways.Signal
open Js

section
variable (word : UInt16 → Bool)

/-- A marker in a text and the first one like it after it, around a text that can be styled. -/
structure Paired (text before marker inner after : JsString) : Prop where
  splits : text = before ++ (marker ++ (inner ++ (marker ++ after)))
  known : marker ∈ markers.map Prod.fst
  /-- No longer marker stands there. -/
  longest : ∀ m ∈ markers.map Prod.fst,
    m <+: marker ++ (inner ++ (marker ++ after)) → m <+: marker
  first : ∀ a b, inner ++ (marker ++ after) = a ++ (marker ++ b) → inner.length ≤ a.length
  ne_nil : inner ≠ []
  trimmed : trim inner = inner
  outer : marker = js "_" → insideWord word before.getLast? after.head? = false

/-- A marker at one place pairs, and its partner ends at the other. -/
def Runs (text : JsString) (i j : Nat) : Prop :=
  ∃ before marker inner after, Paired word text before marker inner after ∧
    before.length = i ∧ (before ++ (marker ++ (inner ++ marker))).length = j

/-- The places at which an emphasis of the text closes, or one inside it. -/
inductive Closes : JsString → Nat → Prop where
  | here {text before marker inner after : JsString}
    (hpaired : Paired word text before marker inner after) (hmarker : marker ≠ js "`")
    (htaken : Taken (Runs word text) before.length) :
    Closes text (before.length + marker.length + inner.length)
  | inside {text before marker inner after : JsString} {k : Nat}
    (hpaired : Paired word text before marker inner after) (hmarker : marker ≠ js "`")
    (htaken : Taken (Runs word text) before.length) (hinner : Closes inner k) :
    Closes text (before.length + marker.length + k)

end

/-- The marker that is found is the longest that stands at a place. -/
theorem find_marker_iff {rest marker : JsString} {style : Style} :
    (markers.find? fun (m, _) => m.isPrefixOf rest) = some (marker, style) ↔
      (marker, style) ∈ markers ∧ marker <+: rest ∧
        ∀ m ∈ markers.map Prod.fst, m <+: rest → m <+: marker := by
  have hfound {marker : JsString} {style : Style}
      (h : (markers.find? fun (m, _) => m.isPrefixOf rest) = some (marker, style)) :
      (marker, style) ∈ markers ∧ marker <+: rest ∧
        ∀ m ∈ markers.map Prod.fst, m <+: rest → m <+: marker := by
    have hprefix : marker <+: rest := List.isPrefixOf_iff_prefix.1
      (by simpa using List.find?_some h)
    refine ⟨List.mem_of_find?_eq_some h, hprefix, fun m hm hmrest => ?_⟩
    obtain hle | hle := Nat.le_total m.length marker.length
    · exact List.prefix_of_prefix_length_le hmrest hprefix hle
    · have hmarkerm := List.prefix_of_prefix_length_le hprefix hmrest hle
      have hall : ∀ x ∈ markers, ∀ m ∈ markers.map Prod.fst, x.1 <+: m →
          m = x.1 ∨ m = js "**" ∧ x ≠ (js "**", .bold) := by decide
      obtain rfl | ⟨rfl, hne⟩ := hall _ (List.mem_of_find?_eq_some h) m hm hmarkerm
      · exact List.prefix_rfl
      · have hbold : (markers.find? fun (m, _) => m.isPrefixOf rest) = some (js "**", .bold) :=
          List.find?_cons_of_pos (List.isPrefixOf_iff_prefix.2 hmrest)
        exact absurd (Option.some.inj (h.symm.trans hbold)) hne
  refine ⟨hfound, fun ⟨hmem, hprefix, hlongest⟩ => ?_⟩
  have hsome : (markers.find? fun (m, _) => m.isPrefixOf rest).isSome = true :=
    List.find?_isSome.2 ⟨_, hmem, List.isPrefixOf_iff_prefix.2 hprefix⟩
  obtain ⟨⟨m, style'⟩, h⟩ := Option.isSome_iff_exists.1 hsome
  obtain ⟨hm, hmrest, hlongest'⟩ := hfound h
  have hle := hlongest m (List.mem_map_of_mem hm) hmrest
  have hge := hlongest' marker (List.mem_map_of_mem hmem) hprefix
  obtain rfl := hle.eq_of_length (Nat.le_antisymm hle.length_le hge.length_le)
  have hall : ∀ x ∈ markers, ∀ y ∈ markers, x.1 = y.1 → x = y := by decide
  rw [h, hall _ hm _ hmem rfl]

section
variable {word : UInt16 → Bool} {text before marker inner after rest : JsString}

theorem paired_of_runAt {run : Run} (h : runAt word before.getLast? rest = some run) :
    Paired word (before ++ rest) before run.marker run.inner run.after := by
  have hsplits := (runAt_eq_some word h).1
  unfold runAt at h
  split at h
  · cases h
  · rename_i marker style hfind
    obtain ⟨hmem, ⟨t, rfl⟩, hlongest⟩ := find_marker_iff.1 hfind
    rw [List.drop_left] at h
    split at h
    · cases h
    · rename_i inner after hcut
      split at h
      · cases h
      · split at h
        · cases h
        · split at h
          · cases h
          · next houter =>
            cases h
            refine ⟨congrArg (before ++ ·) hsplits, List.mem_map_of_mem hmem,
              hsplits ▸ hlongest, ?_, ‹_›, Decidable.of_not_not ‹_›, ?_⟩
            · intro a b hab
              exact le_of_cutAtText hcut ((eq_of_cutAtText hcut).trans hab)
            · exact fun hmarker => Bool.eq_false_iff.2 fun hword => houter ⟨hmarker, hword⟩

theorem runAt_of_paired (h : Paired word (before ++ rest) before marker inner after) :
    (runAt word before.getLast? rest).isSome = true := by
  have hrest := List.append_cancel_left h.splits
  obtain ⟨⟨marker, style⟩, hmem, rfl⟩ := List.mem_map.1 h.known
  have hfind := find_marker_iff.2 ⟨hmem, ⟨_, rfl⟩, h.longest⟩
  obtain ⟨⟨inner', after'⟩, hcut⟩ := Option.isSome_iff_exists.1
    (isSome_cutAtText marker inner after)
  have heq := eq_of_cutAtText hcut
  have hle := le_of_cutAtText hcut rfl
  obtain ⟨rfl, hafter⟩ := List.append_inj heq (Nat.le_antisymm (h.first _ _ heq) hle)
  obtain rfl := List.append_cancel_left hafter
  have houter : ¬(marker = js "_" ∧ insideWord word before.getLast? after.head? = true) :=
    fun hword => Bool.eq_false_iff.1 (h.outer hword.1) hword.2
  rw [hrest, runAt, hfind]
  simp only [List.drop_left, hcut, if_neg h.ne_nil, if_neg (not_not_intro h.trimmed), if_neg houter]
  rfl

/-- No pair begins where the scan reads none. -/
theorem not_runs_of_runAt (h : runAt word before.getLast? rest = none) (j : Nat) :
    ¬Runs word (before ++ rest) before.length j := by
  rintro ⟨before', marker, inner, after, hpaired, hplace, _⟩
  obtain ⟨rfl, _⟩ := List.append_inj hpaired.splits hplace.symm
  have hsome := runAt_of_paired hpaired
  rw [h] at hsome
  cases hsome

theorem monospace_iff_backtick {prev : Option UInt16} {run : Run}
    (h : runAt word prev rest = some run) : run.style = .monospace ↔ run.marker = js "`" := by
  have hmem := (runAt_eq_some word h).2.2.2
  refine ⟨fun hstyle => marker_of_monospace (hstyle ▸ hmem), fun hmarker => ?_⟩
  have hall : ∀ m ∈ markers, m.1 = js "`" → m.2 = .monospace := by decide
  exact hall _ hmem hmarker

/-- At a place one pair begins at most. -/
theorem Paired.eq {before' marker' inner' after' : JsString}
    (h : Paired word text before marker inner after)
    (h' : Paired word text before' marker' inner' after')
    (hplace : before.length = before'.length) :
    before = before' ∧ marker = marker' ∧ inner = inner' ∧ after = after' := by
  obtain ⟨rfl, hrest⟩ := List.append_inj (h.splits.symm.trans h'.splits) hplace
  have hle := h'.longest marker h.known ⟨_, hrest⟩
  have hge := h.longest marker' h'.known ⟨_, hrest.symm⟩
  obtain rfl := hle.eq_of_length (Nat.le_antisymm hle.length_le hge.length_le)
  have hrest := List.append_cancel_left hrest
  obtain ⟨rfl, hafter⟩ := List.append_inj hrest
    (Nat.le_antisymm (h.first _ _ hrest) (h'.first _ _ hrest.symm))
  exact ⟨rfl, rfl, rfl, List.append_cancel_left hafter⟩

theorem Paired.marker_pos (h : Paired word text before marker inner after) : 0 < marker.length := by
  obtain ⟨m, hm, rfl⟩ := List.mem_map.1 h.known
  exact marker_ne_nil hm

theorem Paired.runs (h : Paired word text before marker inner after) :
    Runs word text before.length (before ++ (marker ++ (inner ++ marker))).length :=
  ⟨before, marker, inner, after, h, rfl, rfl⟩

theorem Paired.settled (h : Paired word text before marker inner after)
    (hsettled : Settled (Runs word text) before.length) :
    Settled (Runs word text) (before ++ (marker ++ (inner ++ marker))).length := by
  refine hsettled.of_stretch h.runs (by simp) ?_
  rintro j ⟨before', marker', inner', after', h', hplace, rfl⟩
  obtain ⟨rfl, rfl, rfl, rfl⟩ := h.eq h' hplace.symm
  rfl

theorem Paired.splits_end (h : Paired word text before marker inner after) :
    text = before ++ (marker ++ (inner ++ marker)) ++ after := by
  rw [h.splits]
  simp only [List.append_assoc]

theorem Paired.getLast?_end (h : Paired word text before marker inner after) :
    (before ++ (marker ++ (inner ++ marker))).getLast? = marker.getLast? := by
  have hne := List.ne_nil_of_length_pos h.marker_pos
  simp [List.getLast?_append, List.getLast?_eq_some_getLast hne]

/-- A place at which an emphasis closes that opens at or after another. -/
def ClosesFrom (word : UInt16 → Bool) (text : JsString) (n k : Nat) : Prop :=
  ∃ before marker inner after, Paired word text before marker inner after ∧ marker ≠ js "`" ∧
    Taken (Runs word text) before.length ∧ n ≤ before.length ∧
    (k = before.length + marker.length + inner.length ∨
      ∃ k', Closes word inner k' ∧ k = before.length + marker.length + k')

theorem closes_iff_from {k : Nat} : Closes word text k ↔ ClosesFrom word text 0 k := by
  constructor
  · intro h
    cases h with
    | here hpaired hmarker htaken =>
      exact ⟨_, _, _, _, hpaired, hmarker, htaken, Nat.zero_le _, .inl rfl⟩
    | inside hpaired hmarker htaken hinner =>
      exact ⟨_, _, _, _, hpaired, hmarker, htaken, Nat.zero_le _, .inr ⟨_, hinner, rfl⟩⟩
  · rintro ⟨before, marker, inner, after, hpaired, hmarker, htaken, _, rfl | ⟨k', hinner, rfl⟩⟩
    · exact .here hpaired hmarker htaken
    · exact .inside hpaired hmarker htaken hinner

/-- Where no pair begins nothing closes that opens there. -/
theorem closesFrom_succ {n k : Nat} (h : ∀ j, ¬Runs word text n j) :
    ClosesFrom word text n k ↔ ClosesFrom word text (n + 1) k := by
  constructor
  · rintro ⟨before, marker, inner, after, hpaired, hmarker, htaken, hle, hk⟩
    refine ⟨before, marker, inner, after, hpaired, hmarker, htaken, ?_, hk⟩
    exact Nat.lt_of_le_of_ne hle fun hn => h _ (hn ▸ hpaired.runs)
  · rintro ⟨before, marker, inner, after, hpaired, hmarker, htaken, hle, hk⟩
    exact ⟨before, marker, inner, after, hpaired, hmarker, htaken, Nat.le_of_lt hle, hk⟩

/-- What closes from a pair that is taken on: the pair, what is inside it, and what opens after
it. -/
theorem Paired.closesFrom_iff {k : Nat} (h : Paired word text before marker inner after)
    (hsettled : Settled (Runs word text) before.length) :
    ClosesFrom word text before.length k ↔
      (marker ≠ js "`" ∧ (k = before.length + marker.length + inner.length ∨
        ∃ k', Closes word inner k' ∧ k = before.length + marker.length + k')) ∨
      ClosesFrom word text (before ++ (marker ++ (inner ++ marker))).length k := by
  constructor
  · rintro ⟨before', marker', inner', after', hpaired, hmarker, htaken, hle, hk⟩
    obtain heq | hlt := Nat.eq_or_lt_of_le hle
    · obtain ⟨rfl, rfl, rfl, rfl⟩ := h.eq hpaired heq
      exact .inl ⟨hmarker, hk⟩
    · refine .inr ⟨before', marker', inner', after', hpaired, hmarker, htaken, ?_, hk⟩
      exact Nat.le_of_not_lt fun hend => hsettled.not_taken h.runs hlt hend htaken
  · rintro (⟨hmarker, hk⟩ | ⟨before', marker', inner', after', hpaired, hmarker, htaken, hle, hk⟩)
    · exact ⟨before, marker, inner, after, h, hmarker, hsettled.taken h.runs, Nat.le_refl _, hk⟩
    · refine ⟨before', marker', inner', after', hpaired, hmarker, htaken, ?_, hk⟩
      exact Nat.le_trans (by simp) hle

/-- The emphasis runs of a scan that has come to a place close where the pairs from there do. -/
theorem closesFrom_iff_scan {prev : Option UInt16} (htext : text = before ++ rest)
    (hprev : before.getLast? = prev) (hsettled : Settled (Runs word text) before.length)
    (place start k : Nat) :
    ClosesFrom word text before.length k ↔
      ∃ s ∈ (scan word prev rest).spans (place + before.length) start,
        s.style ≠ .monospace ∧ s.closes = place + k := by
  fun_induction scan word prev rest generalizing text before place start k with
  | case1 =>
    constructor
    · rintro ⟨before', marker, inner, after, hpaired, _, _, hle, _⟩
      have hlength := congrArg List.length (htext.symm.trans hpaired.splits)
      have hpos := hpaired.marker_pos
      simp only [List.length_append, List.length_nil] at hlength
      omega
    · rintro ⟨_, hs, _⟩
      cases hs
  | case2 prev c tail hrun ih =>
    subst htext hprev
    have hnone := not_runs_of_runAt hrun
    have hlength : (before ++ [c]).length = before.length + 1 := by simp
    rw [closesFrom_succ hnone, ← hlength,
      @ih (before ++ c :: tail) (before ++ [c]) (by simp) (by simp) ?_ place (start + 1) k]
    · rw [hlength]
      rfl
    · rw [hlength]
      refine hsettled.of_none (Nat.le_succ _) fun i hi hlt => ?_
      obtain rfl : i = before.length := by omega
      exact hnone
  | case3 prev c tail run hrun _ hstyle ih =>
    subst htext hprev
    have hpaired := paired_of_runAt hrun
    have hmarker := (monospace_iff_backtick hrun).1 hstyle
    have hplace : place + before.length + 1 + run.inner.length + 1 =
        place + (before ++ (run.marker ++ (run.inner ++ run.marker))).length := by
      have hbacktick : (js "`").length = 1 := rfl
      simp only [hmarker, List.length_append, hbacktick]
      omega
    rw [hpaired.closesFrom_iff hsettled, ih hpaired.splits_end hpaired.getLast?_end
      (hpaired.settled hsettled) place (start + run.inner.length) k, ← hplace]
    constructor
    · rintro (⟨hne, _⟩ | ⟨s, hs, hcloses⟩)
      · exact absurd hmarker hne
      · exact ⟨s, List.mem_cons_of_mem _ hs, hcloses⟩
    · rintro ⟨s, hs, hne, hcloses⟩
      obtain rfl | hs := List.mem_cons.1 hs
      · exact absurd rfl hne
      · exact .inr ⟨s, hs, hne, hcloses⟩
  | case4 prev c tail run hrun _ hstyle ihInside ihRest =>
    subst htext hprev
    have hpaired := paired_of_runAt hrun
    have hmarker := mt (monospace_iff_backtick hrun).2 hstyle
    have hlength : (scan word none run.inner).units.length = run.inner.length := by
      rw [← List.length_map (f := Prod.fst), units_scan]
    have hplace : place + before.length + run.marker.length +
          (scan word none run.inner).units.length + run.marker.length =
        place + (before ++ (run.marker ++ (run.inner ++ run.marker))).length := by
      simp only [List.length_append, hlength]
      omega
    have hinside (k' : Nat) : Closes word run.inner k' ↔
        ∃ s ∈ (scan word none run.inner).spans (place + before.length + run.marker.length) start,
          s.style ≠ .monospace ∧ s.closes = place + before.length + run.marker.length + k' := by
      rw [closes_iff_from]
      exact @ihInside run.inner [] rfl rfl (settled_zero _) _ start k'
    rw [hpaired.closesFrom_iff hsettled, ihRest hpaired.splits_end hpaired.getLast?_end
      (hpaired.settled hsettled) place (start + (scan word none run.inner).message.length) k,
      ← hplace]
    constructor
    · rintro (⟨_, rfl | ⟨k', hk', rfl⟩⟩ | ⟨s, hs, hcloses⟩)
      · refine ⟨_, List.mem_cons_self, hstyle, ?_⟩
        simp only [hlength]
        omega
      · obtain ⟨s, hs, hne, hcloses⟩ := (hinside k').1 hk'
        exact ⟨s, List.mem_cons_of_mem _ (List.mem_append_left _ hs), hne, by omega⟩
      · exact ⟨s, List.mem_cons_of_mem _ (List.mem_append_right _ hs), hcloses⟩
    · rintro ⟨s, hs, hne, hcloses⟩
      obtain rfl | hs := List.mem_cons.1 hs
      · refine .inl ⟨hmarker, .inl ?_⟩
        simp only [hlength] at hcloses
        omega
      · obtain hs | hs := List.mem_append.1 hs
        · have hbounds := (inPlace_of_mem_spans (sound_scan word none run.inner) _ _ hs).1.bounds
          refine .inl ⟨hmarker, .inr ⟨k - (before.length + run.marker.length), ?_, ?_⟩⟩
          · exact (hinside _).2 ⟨s, hs, hne, by omega⟩
          · omega
        · exact .inr ⟨s, hs, hne, hcloses⟩

/-- The emphasis runs of the scan close where the pairs of the text do. -/
theorem closes_iff (word : UInt16 → Bool) (text : JsString) (k : Nat) :
    Closes word text k ↔
      ∃ s ∈ (scan word none text).spans 0 0, s.style ≠ .monospace ∧ s.closes = k := by
  have h := @closesFrom_iff_scan word text [] text none rfl rfl (settled_zero _) 0 0 k
  simp only [List.length_nil, Nat.zero_add] at h
  exact closes_iff_from.trans h

end

end TheokitGateways.Signal
