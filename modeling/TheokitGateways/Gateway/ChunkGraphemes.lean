import TheokitGateways.Gateway.Chunk

/-!
# What the grapheme walk keeps whole

A part is made of whole segments, so that no grapheme cluster is severed, and it
fits its limit unless it is a single cluster that fits in no part
(`chunkByGrapheme_spec`).
-/

namespace TheokitGateways.Gateway
open Js

/-- `Intl.Segmenter` cuts a text into segments, none of them empty. -/
def Partitions (segment : JsString → List JsString) : Prop :=
  ∀ text, (segment text).flatten = text ∧ ∀ s ∈ segment text, s ≠ []

/-- Segments that make a part: they fit in it, or are a single one that fits in none. -/
def FitsPart (partLimit : Nat) (group : List JsString) : Prop :=
  group.flatten.length ≤ partLimit ∨ ∃ s, group = [s]

/-- What the walk has made of the segments it has seen: a group for each part, and a last one for
the part being filled. -/
structure Walked (partLimit : Nat) (seen : List JsString) (state : List JsString × JsString)
    (groups : List (List JsString)) (last : List JsString) : Prop where
  whole : groups.flatten ++ last = seen
  parts : state.1 = groups.map List.flatten
  buf : state.2 = last.flatten
  fits : ∀ group ∈ groups, group ≠ [] ∧ FitsPart partLimit group
  filling : last = [] ∨ FitsPart partLimit last

theorem flatten_eq_nil_iff {group : List JsString} (h : ∀ s ∈ group, s ≠ []) :
    group.flatten = [] ↔ group = [] := by
  rw [List.flatten_eq_nil_iff]
  refine ⟨fun hall => ?_, by rintro rfl; simp⟩
  cases group with
  | nil => rfl
  | cons s group => exact absurd (hall s List.mem_cons_self) (h s List.mem_cons_self)

/-- The walk takes one segment more. -/
def graphemeStep (partLimit : Nat) (state : List JsString × JsString) (s : JsString) :
    List JsString × JsString :=
  if partLimit < state.2.length + s.length then
    (if state.2 = [] then state.1 else state.1 ++ [state.2], s)
  else (state.1, state.2 ++ s)

theorem graphemeWalk_eq (partLimit : Nat) (segments : List JsString) :
    graphemeWalk partLimit segments = segments.foldl (graphemeStep partLimit) ([], []) := rfl

theorem walked_step {partLimit : Nat} {seen last : List JsString}
    {state : List JsString × JsString} {groups : List (List JsString)} {s : JsString}
    (h : Walked partLimit seen state groups last) (hseen : ∀ t ∈ seen, t ≠ []) :
    ∃ groups last, Walked partLimit (seen ++ [s]) (graphemeStep partLimit state s) groups last := by
  have hempty : state.2 = [] ↔ last = [] := by
    rw [h.buf]
    refine flatten_eq_nil_iff fun t ht => hseen t ?_
    rw [← h.whole]
    exact List.mem_append_right _ ht
  unfold graphemeStep
  split
  · split
    · have hlast := hempty.1 ‹_›
      refine ⟨groups, [s], ?_, h.parts, by simp, h.fits, .inr (.inr ⟨s, rfl⟩)⟩
      rw [← h.whole, hlast, List.append_nil]
    · have hlast : last ≠ [] := mt hempty.2 ‹_›
      refine ⟨groups ++ [last], [s], ?_, ?_, by simp, ?_, .inr (.inr ⟨s, rfl⟩)⟩
      · simp [← h.whole]
      · simp [h.parts, h.buf]
      · intro group hgroup
        obtain hgroup | hgroup := List.mem_append.1 hgroup
        · exact h.fits group hgroup
        · cases List.mem_singleton.1 hgroup
          exact ⟨hlast, h.filling.resolve_left hlast⟩
  · rename_i hroom
    refine ⟨groups, last ++ [s], ?_, h.parts, by simp [h.buf], h.fits, .inr (.inl ?_)⟩
    · rw [← h.whole, List.append_assoc]
    · rw [h.buf] at hroom
      simp only [List.flatten_append, List.flatten_singleton, List.length_append]
      omega

theorem walked_foldl {partLimit : Nat} {seen last : List JsString}
    {state : List JsString × JsString} {groups : List (List JsString)} (segments : List JsString)
    (h : Walked partLimit seen state groups last) (hall : ∀ t ∈ seen ++ segments, t ≠ []) :
    ∃ groups last, Walked partLimit (seen ++ segments)
      (segments.foldl (graphemeStep partLimit) state) groups last := by
  induction segments generalizing seen state groups last with
  | nil => exact ⟨groups, last, by simpa using h⟩
  | cons s segments ih =>
    have hsplit : seen ++ s :: segments = seen ++ [s] ++ segments := by simp
    rw [hsplit] at hall ⊢
    obtain ⟨groups', last', hstep⟩ :=
      walked_step (s := s) h fun t ht =>
        hall t (List.mem_append_left _ (List.mem_append_left _ ht))
    exact ih hstep hall

theorem graphemeParts_of_short (segment : JsString → List JsString) {text : JsString} {limit : Nat}
    (hshort : text.length ≤ limit) (partLimit : Nat) :
    graphemeParts segment text limit partLimit = [text] := by
  unfold graphemeParts
  split
  · rename_i hempty
    rw [hempty]
  · rfl

/-- The parts of a text longer than the limit are groups of its segments. -/
theorem graphemeParts_groups {segment : JsString → List JsString} (hsegment : Partitions segment)
    {text : JsString} {limit : Nat} (hlong : limit < text.length) (partLimit : Nat) :
    ∃ groups : List (List JsString), groups.flatten = segment text ∧
      graphemeParts segment text limit partLimit = groups.map List.flatten ∧
      ∀ group ∈ groups, group ≠ [] ∧ FitsPart partLimit group := by
  obtain ⟨_, hne⟩ := hsegment text
  have hstart : Walked partLimit [] ([], []) [] [] :=
    ⟨rfl, rfl, rfl, by simp, .inl rfl⟩
  obtain ⟨groups, last, h⟩ := walked_foldl (segment text) hstart hne
  rw [List.nil_append, ← graphemeWalk_eq] at h
  have hempty : (graphemeWalk partLimit (segment text)).2 = [] ↔ last = [] := by
    rw [h.buf]
    refine flatten_eq_nil_iff fun t ht => hne t ?_
    rw [← h.whole]
    exact List.mem_append_right _ ht
  have hnonempty : text ≠ [] := List.length_pos_iff.1 (by omega)
  simp only [graphemeParts, hnonempty, if_false, Nat.not_le.2 hlong]
  split
  · have hlast := hempty.1 ‹_›
    refine ⟨groups, ?_, h.parts, h.fits⟩
    rw [← h.whole, hlast, List.append_nil]
  · have hlast : last ≠ [] := mt hempty.2 ‹_›
    refine ⟨groups ++ [last], ?_, ?_, ?_⟩
    · simp [← h.whole]
    · simp [h.parts, h.buf]
    · intro group hgroup
      obtain hgroup | hgroup := List.mem_append.1 hgroup
      · exact h.fits group hgroup
      · cases List.mem_singleton.1 hgroup
        exact ⟨hlast, h.filling.resolve_left hlast⟩

theorem flatten_graphemeParts {segment : JsString → List JsString} (hsegment : Partitions segment)
    (text : JsString) (limit partLimit : Nat) :
    (graphemeParts segment text limit partLimit).flatten = text := by
  by_cases hlong : limit < text.length
  · obtain ⟨groups, hgroups, hparts, _⟩ := graphemeParts_groups hsegment hlong partLimit
    rw [hparts, ← List.flatten_flatten, hgroups, (hsegment text).1]
  · rw [graphemeParts_of_short segment (Nat.not_lt.1 hlong)]
    simp

/-- The parts of a text longer than the limit are not empty, and fit in `partLimit` or are a single
segment. -/
theorem graphemeParts_of_long {segment : JsString → List JsString} (hsegment : Partitions segment)
    {text : JsString} {limit : Nat} (hlong : limit < text.length) (partLimit : Nat) :
    ∀ part ∈ graphemeParts segment text limit partLimit,
      part ≠ [] ∧ (part.length ≤ partLimit ∨ part ∈ segment text) := by
  obtain ⟨groups, hgroups, hparts, hfits⟩ := graphemeParts_groups hsegment hlong partLimit
  intro part hpart
  rw [hparts] at hpart
  obtain ⟨group, hgroup, rfl⟩ := List.mem_map.1 hpart
  obtain ⟨hne, hfit⟩ := hfits group hgroup
  have hmem {s : JsString} (hs : s ∈ group) : s ∈ segment text := by
    rw [← hgroups]
    exact List.mem_flatten_of_mem hgroup hs
  refine ⟨mt (flatten_eq_nil_iff fun s hs => (hsegment text).2 s (hmem hs)).1 hne, ?_⟩
  obtain hfit | ⟨s, rfl⟩ := hfit
  · exact .inl hfit
  · exact .inr (by simpa using hmem (List.mem_singleton_self s))

/-- The parts are groups of whole segments and give the text again; those of a text longer than the
limit fit in `partLimit`, but for a single segment that fits in no part. -/
theorem chunkByGrapheme_spec {segment : JsString → List JsString} (hsegment : Partitions segment)
    (text : JsString) {limit partLimit : Nat} (hlimit : 0 < limit) (hpart : 0 < partLimit) :
    ∃ parts, chunkByGrapheme segment text limit partLimit = .ok parts ∧ parts.flatten = text ∧
      (∃ groups : List (List JsString), groups.flatten = segment text ∧
        parts = groups.map List.flatten) ∧
      (limit < text.length → ∀ part ∈ parts, part.length ≤ partLimit ∨ part ∈ segment text) := by
  obtain ⟨hflatten, hne⟩ := hsegment text
  refine ⟨_, chunkByGrapheme_of_pos hlimit hpart, ?_⟩
  have hwhole {parts : List JsString} (groups : List (List JsString))
      (hgroups : groups.flatten = segment text) (hparts : parts = groups.map List.flatten) :
      parts.flatten = text := by
    rw [hparts, ← List.flatten_flatten, hgroups, hflatten]
  by_cases hlong : limit < text.length
  · obtain ⟨groups, hgroups, hparts, _⟩ := graphemeParts_groups hsegment hlong partLimit
    exact ⟨hwhole groups hgroups hparts, ⟨groups, hgroups, hparts⟩, fun _ part hpart =>
      (graphemeParts_of_long hsegment hlong partLimit part hpart).2⟩
  · have hparts : graphemeParts segment text limit partLimit =
        [segment text].map List.flatten := by
      rw [graphemeParts_of_short segment (Nat.not_lt.1 hlong), List.map_singleton, hflatten]
    exact ⟨hwhole _ (by simp) hparts, ⟨_, by simp, hparts⟩, fun h => absurd h hlong⟩

/-- One character for each unit, but for an `e` with an accent of its own. -/
def accented (text : JsString) : List JsString :=
  if text = js "e\u0301" then [text] else text.map fun c => [c]

theorem partitions_accented : Partitions accented := by
  intro text
  unfold accented
  split
  · subst text
    exact ⟨by simp, by decide⟩
  · exact ⟨by simp [← List.flatMap_def], by simp⟩

theorem chunkByGrapheme_spec_accented :
    ∃ parts, chunkByGrapheme accented (js "e\u0301") 1 1 = .ok parts ∧
      parts.flatten = js "e\u0301" ∧
      (∃ groups : List (List JsString), groups.flatten = accented (js "e\u0301") ∧
        parts = groups.map List.flatten) ∧
      (1 < (js "e\u0301").length →
        ∀ part ∈ parts, part.length ≤ 1 ∨ part ∈ accented (js "e\u0301")) :=
  chunkByGrapheme_spec partitions_accented (js "e\u0301") (by decide) (by decide)

/-- A cluster longer than the limit is a part of its own. -/
theorem oversized_part :
    ¬∀ segment, Partitions segment → ∀ text limit partLimit, 0 < limit → 0 < partLimit →
      ∃ parts, chunkByGrapheme segment text limit partLimit = .ok parts ∧ parts.flatten = text ∧
        (∃ groups : List (List JsString), groups.flatten = segment text ∧
        parts = groups.map List.flatten) ∧
        (limit < text.length → ∀ part ∈ parts, part.length ≤ partLimit) := by
  intro h
  obtain ⟨parts, hok, hflatten, _, hfits⟩ :=
    h accented partitions_accented (js "e\u0301") 1 1 (by decide) (by decide)
  have hparts : parts = [js "e\u0301"] := by
    have hok' : chunkByGrapheme accented (js "e\u0301") 1 1 = .ok [js "e\u0301"] := rfl
    exact Except.ok.inj (hok.symm.trans hok')
  subst hparts
  exact absurd (hfits (by decide) _ List.mem_cons_self) (by decide)

end TheokitGateways.Gateway
