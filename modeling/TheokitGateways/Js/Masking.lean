import TheokitGateways.Js.Regex

/-!
# What replacements leave standing

A text in which matches are replaced is a list of parts: units that are left, and
masks, each with what it stands for. `maskParts` is one replacement of all matches
of a pattern, on parts (`shown_maskParts`); it keeps what the parts stand for
(`sources_maskParts`). A stretch of units that is left by the replacements of
several patterns is, where it stands in the text, a match of none of them
(`stretch_of_maskEach`).
-/

namespace TheokitGateways.Js

/-- A unit that is left, or what was replaced. -/
inductive Part where
  | plain (c : UInt16)
  | masked (w : JsString)

namespace Part

/-- The text that parts stand for. -/
def sources (parts : List Part) : JsString :=
  parts.flatMap fun
    | plain c => [c]
    | masked w => w

/-- Parts with a text in the place of what was replaced. -/
def shown (r : JsString) (parts : List Part) : JsString :=
  parts.flatMap fun
    | plain c => [c]
    | masked _ => r

section
variable (r : JsString) (a b : List Part) (c : UInt16) (w : JsString)

@[simp] theorem sources_nil : sources [] = [] := rfl

@[simp] theorem sources_cons_plain : sources (plain c :: a) = c :: sources a := rfl

@[simp] theorem sources_cons_masked : sources (masked w :: a) = w ++ sources a := rfl

@[simp] theorem sources_append : sources (a ++ b) = sources a ++ sources b := List.flatMap_append

@[simp] theorem shown_nil : shown r [] = [] := rfl

@[simp] theorem shown_cons_plain : shown r (plain c :: a) = c :: shown r a := rfl

@[simp] theorem shown_cons_masked : shown r (masked w :: a) = r ++ shown r a := rfl

@[simp] theorem shown_append : shown r (a ++ b) = shown r a ++ shown r b := List.flatMap_append

@[simp] theorem sources_map_plain : sources (w.map plain) = w := by
  induction w with
  | nil => rfl
  | cons c w ih => exact congrArg (c :: ·) ih

@[simp] theorem shown_map_plain : shown r (w.map plain) = w := by
  induction w with
  | nil => rfl
  | cons c w ih => exact congrArg (c :: ·) ih

end

theorem item_ne_nil {r : JsString} (hr : r ≠ []) {parts : List Part} :
    ∀ part ∈ parts, shown r [part] ≠ [] := by
  rintro (c | w) _
  · exact List.cons_ne_nil _ _
  · simpa using hr

theorem own_item {r w : JsString} (hw : ∀ c ∈ r, c ∉ w) :
    ∀ c ∈ w, ∀ part, c ∈ shown r [part] → part = plain c ∧ shown r [part] = [c] := by
  rintro c hc (d | m) hmem
  · cases List.mem_singleton.1 hmem
    exact ⟨rfl, rfl⟩
  · rw [shown_cons_masked, shown_nil, List.append_nil] at hmem
    exact absurd hc (hw c hmem)

theorem shown_eq_flatMap (r : JsString) (parts : List Part) :
    shown r parts = parts.flatMap fun part => shown r [part] := by
  induction parts with
  | nil => rfl
  | cons part parts ih =>
    rw [List.flatMap_cons, ← ih]
    exact shown_append r [part] parts

/-- What is shown free of the replacement is left. -/
theorem map_plain_of_shown {r : JsString} (hr : r ≠ []) {parts : List Part} {w y : JsString}
    (hw : ∀ c ∈ r, c ∉ w) (h : shown r parts = w ++ y) :
    ∃ rest, parts = w.map plain ++ rest ∧ shown r rest = y := by
  rw [shown_eq_flatMap] at h
  obtain ⟨rest, heq, hrest⟩ := prefix_of_flatMap (item_ne_nil hr) (own_item hw) h
  exact ⟨rest, heq, (shown_eq_flatMap r rest).trans hrest⟩

/-- What is shown free of the replacement is a stretch of units that are left. -/
theorem stretch_of_shown {r : JsString} (hr : r ≠ []) {parts : List Part} {a w b : JsString}
    (hne : w ≠ []) (hw : ∀ c ∈ r, c ∉ w) (h : shown r parts = a ++ (w ++ b)) :
    ∃ before after, parts = before ++ (w.map plain ++ after) ∧ shown r before = a ∧
      shown r after = b := by
  rw [shown_eq_flatMap] at h
  obtain ⟨before, after, heq, hbefore, hafter⟩ :=
    infix_of_flatMap (item_ne_nil hr) (own_item hw) hne h
  exact ⟨before, after, heq, (shown_eq_flatMap r before).trans hbefore,
    (shown_eq_flatMap r after).trans hafter⟩

/-- The unit a stretch is next to on its left is the last of the text before it, unless that is
replaced. -/
theorem getLast?_shown {r : JsString} (hr : r ≠ []) (parts : List Part) :
    (shown r parts).getLast? = (sources parts).getLast? ∨
      ∃ c ∈ r, (shown r parts).getLast? = some c := by
  obtain rfl | ⟨front, part, rfl⟩ := List.eq_nil_or_concat parts
  · exact .inl rfl
  · cases part with
    | plain c => simp
    | masked m =>
      refine .inr ⟨r.getLast hr, List.getLast_mem hr, ?_⟩
      simp [List.getLast?_append, List.getLast?_eq_some_getLast hr]

theorem head?_shown {r : JsString} (hr : r ≠ []) (parts : List Part) :
    (shown r parts).head? = (sources parts).head? ∨
      ∃ c ∈ r, (shown r parts).head? = some c := by
  cases parts with
  | nil => exact .inl rfl
  | cons part parts =>
    cases part with
    | plain c => exact .inl rfl
    | masked m => exact .inr (Pattern.head?_replacement hr)

theorem getLast?_shown_refused {r : JsString} (hr : r ≠ []) {q : UInt16 → Bool}
    (hq : ∀ c ∈ r, q c = false) (parts : List Part) :
    (shown r parts).getLast?.any q = false ↔
      ∀ c, parts.getLast? = some (plain c) → q c = false := by
  obtain rfl | ⟨front, part, rfl⟩ := List.eq_nil_or_concat parts
  · simp
  · cases part with
    | plain c => simp
    | masked m =>
      have hlast := hq _ (List.getLast_mem hr)
      simp [List.getLast?_append, List.getLast?_eq_some_getLast hr, hlast]

theorem head?_shown_refused {r : JsString} (hr : r ≠ []) {q : UInt16 → Bool}
    (hq : ∀ c ∈ r, q c = false) (parts : List Part) :
    (shown r parts).head?.any q = false ↔ ∀ c, parts.head? = some (plain c) → q c = false := by
  cases parts with
  | nil => simp
  | cons part parts =>
    cases part with
    | plain c => simp
    | masked m =>
      obtain ⟨c, hc, hhead⟩ := Pattern.head?_replacement (t := shown r parts) hr
      simp [hhead, hq c hc]

end Part

namespace Pattern

open TheokitGateways.Js.Part

/-- No piece takes a unit of the replacement. -/
def Excludes (p : Pattern) (r : JsString) : Prop :=
  ∀ c ∈ r, ∀ piece ∈ p.pieces, piece.admits c = false

/-- `s.replace(p, r)` on the parts that follow `prev`. -/
def maskParts (p : Pattern) (r : JsString) (prev : Option UInt16) : List Part → List Part
  | [] => []
  | masked w :: parts => masked w :: p.maskParts r (r.getLast?.or prev) parts
  | plain c :: parts =>
    match p.exec prev (c :: shown r parts) with
    | none => plain c :: p.maskParts r (some c) parts
    | some n =>
      masked (sources (plain c :: parts.take (n - 1))) ::
        p.maskParts r (shown r (plain c :: parts.take (n - 1))).getLast? (parts.drop (n - 1))
termination_by parts => parts.length
decreasing_by
  · exact Nat.lt_succ_self _
  · exact Nat.lt_succ_self _
  · rw [List.length_drop, List.length_cons]
    omega

/-- `replaceEach` on parts. -/
def maskEach (r : JsString) (ps : List Pattern) (parts : List Part) : List Part :=
  ps.foldl (fun out p => p.maskParts r none out) parts

variable {p : Pattern} {r : JsString}

/-- Replacing changes nothing of what the parts stand for. -/
theorem sources_maskParts (prev : Option UInt16) (parts : List Part) :
    sources (p.maskParts r prev parts) = sources parts := by
  fun_induction maskParts p r prev parts with
  | case1 => rfl
  | case2 prev w parts ih => simp [ih]
  | case3 prev c parts hexec ih => simp [ih]
  | case4 prev c parts n hexec ih =>
    rw [sources_cons_masked, ih, ← sources_append, List.cons_append, List.take_append_drop]

theorem exec_spells {prev : Option UInt16} {s : JsString} {n : Nat} (h : p.exec prev s = some n) :
    n ≤ s.length ∧ Spells p.pieces (s.take n) := by
  have hprev : prev.toList.getLast? = prev := by cases prev <;> rfl
  rw [← hprev] at h
  obtain ⟨hlen, hmatch⟩ := exec_eq_some h
  exact ⟨hlen, hmatch.spells⟩

theorem notMem_of_excludes (hp : p.Excludes r) {w : JsString} (hw : Spells p.pieces w) :
    ∀ c ∈ r, c ∉ w := by
  intro c hc hmem
  obtain ⟨piece, hpiece, hadmits⟩ := exists_admits_of_spells hw hmem
  rw [hp c hc piece hpiece] at hadmits
  cases hadmits

theorem exec_eq_none_of_excludes (hp : p.Excludes r) {c : UInt16} (hc : c ∈ r)
    (prev : Option UInt16) (s : JsString) : p.exec prev (c :: s) = none := by
  rw [Option.eq_none_iff_forall_not_mem]
  intro n hn
  obtain ⟨_, hspells⟩ := exec_spells hn
  have hpos := length_pos_of_spells p.nonempty hspells
  obtain ⟨n, rfl⟩ : ∃ m, n = m + 1 := by
    rw [List.length_take] at hpos
    exact ⟨n - 1, by omega⟩
  exact notMem_of_excludes hp hspells c hc List.mem_cons_self

theorem replaceFrom_skip (u s : JsString) (prev : Option UInt16) :
    p.replaceFrom r prev u.length (u ++ s) = p.replaceFrom r (u.getLast?.or prev) 0 s := by
  induction u generalizing prev with
  | nil => rfl
  | cons c u ih =>
    rw [getLast?_cons_or]
    exact ih (some c)

/-- A replacement is not replaced. -/
theorem replaceFrom_replacement (hp : p.Excludes r) {u : JsString} (hu : ∀ c ∈ u, c ∈ r)
    (s : JsString) (prev : Option UInt16) :
    p.replaceFrom r prev 0 (u ++ s) = u ++ p.replaceFrom r (u.getLast?.or prev) 0 s := by
  induction u generalizing prev with
  | nil => rfl
  | cons c u ih =>
    obtain ⟨hc, hu⟩ := List.forall_mem_cons.1 hu
    rw [getLast?_cons_or, List.cons_append, replaceFrom, exec_eq_none_of_excludes hp hc, ih hu]
    rfl

/-- A match on parts takes units that are left. -/
theorem take_of_exec (hr : r ≠ []) (hp : p.Excludes r) {prev : Option UInt16} {c : UInt16}
    {parts : List Part} {n : Nat} (h : p.exec prev (c :: shown r parts) = some n) :
    ∃ (w : JsString) (rest : List Part), parts = w.map plain ++ rest ∧ n = w.length + 1 := by
  obtain ⟨hlen, hspells⟩ := exec_spells h
  have hpos := length_pos_of_spells p.nonempty hspells
  have hfree := notMem_of_excludes hp hspells
  rw [List.length_take] at hpos
  obtain ⟨n, rfl⟩ : ∃ m, n = m + 1 := ⟨n - 1, by omega⟩
  rw [List.take_succ_cons] at hfree
  obtain ⟨rest, heq, _⟩ := map_plain_of_shown hr
    (fun d hd hmem => hfree d hd (List.mem_cons_of_mem _ hmem))
    (List.take_append_drop n (shown r parts)).symm
  refine ⟨_, rest, heq, ?_⟩
  rw [List.length_cons] at hlen
  rw [List.length_take]
  omega

/-- Parts show the text with its matches replaced. -/
theorem shown_maskParts (hr : r ≠ []) (hp : p.Excludes r) (prev : Option UInt16)
    (parts : List Part) :
    shown r (p.maskParts r prev parts) = p.replaceFrom r prev 0 (shown r parts) := by
  fun_induction maskParts p r prev parts with
  | case1 => rfl
  | case2 prev w parts ih =>
    rw [shown_cons_masked, shown_cons_masked, ih, replaceFrom_replacement hp fun _ hc => hc]
  | case3 prev c parts hexec ih =>
    rw [shown_cons_plain, shown_cons_plain, ih, replaceFrom, hexec]
  | case4 prev c parts n hexec ih =>
    have hstep : p.replaceFrom r prev 0 (shown r (plain c :: parts)) =
        r ++ p.replaceFrom r (some c) (n - 1) (shown r parts) := by
      rw [shown_cons_plain, replaceFrom, hexec]
    rw [shown_cons_masked, ih, hstep]
    obtain ⟨w, rest, rfl, rfl⟩ := take_of_exec hr hp hexec
    have hlen : w.length = (w.map plain).length := (List.length_map _).symm
    rw [Nat.add_sub_cancel, shown_append, shown_map_plain, replaceFrom_skip, hlen, List.take_left,
      List.drop_left, shown_cons_plain, shown_map_plain, List.getLast?_cons]
    cases w.getLast? <;> rfl

/-- A stretch that is left at the front of the parts was there. -/
theorem front_of_maskParts {prev : Option UInt16} {parts B : List Part} {w : JsString}
    (h : p.maskParts r prev parts = w.map plain ++ B) :
    ∃ B', parts = w.map plain ++ B' ∧ sources B' = sources B := by
  induction w generalizing prev parts with
  | nil =>
    refine ⟨parts, rfl, ?_⟩
    rw [← sources_maskParts (p := p) (r := r) prev parts, h]
    rfl
  | cons d w ih =>
    cases parts with
    | nil =>
      rw [maskParts] at h
      cases h
    | cons part parts =>
      cases part with
      | masked m =>
        rw [maskParts] at h
        cases h
      | plain c =>
        rw [maskParts] at h
        split at h
        · obtain ⟨hc, hrest⟩ := List.cons.inj h
          cases hc
          obtain ⟨B', rfl, hsources⟩ := ih hrest
          exact ⟨B', rfl, hsources⟩
        · cases h

/-- A stretch that is left stood in the parts, where no match begins with it. -/
theorem stretch_of_maskParts {prev : Option UInt16} {parts A B : List Part} {w : JsString}
    (hne : w ≠ []) (h : p.maskParts r prev parts = A ++ (w.map plain ++ B)) :
    ∃ A' B', parts = A' ++ (w.map plain ++ B') ∧ sources A' = sources A ∧
      sources B' = sources B ∧ p.exec ((shown r A').getLast?.or prev) (w ++ shown r B') = none := by
  fun_induction maskParts p r prev parts generalizing A with
  | case1 => simp [hne] at h
  | case2 prev m parts ih =>
    cases A with
    | nil =>
      obtain ⟨d, w, rfl⟩ := List.exists_cons_of_ne_nil hne
      cases h
    | cons part A =>
      obtain ⟨rfl, hrest⟩ := List.cons.inj h
      obtain ⟨A', B', rfl, hA, hB, hexec⟩ := ih hrest
      refine ⟨masked m :: A', B', rfl, by simp [hA], hB, ?_⟩
      rwa [shown_cons_masked, List.getLast?_append, Option.or_assoc]
  | case3 prev c parts hexec ih =>
    cases A with
    | nil =>
      obtain ⟨d, w, rfl⟩ := List.exists_cons_of_ne_nil hne
      obtain ⟨hc, hrest⟩ := List.cons.inj h
      cases hc
      obtain ⟨B', rfl, hB⟩ := front_of_maskParts hrest
      refine ⟨[], B', rfl, rfl, hB, ?_⟩
      rwa [shown_append, shown_map_plain] at hexec
    | cons part A =>
      obtain ⟨rfl, hrest⟩ := List.cons.inj h
      obtain ⟨A', B', rfl, hA, hB, hexec'⟩ := ih hrest
      refine ⟨plain c :: A', B', rfl, by simp [hA], hB, ?_⟩
      rwa [shown_cons_plain, getLast?_cons_or]
  | case4 prev c parts n hexec ih =>
    cases A with
    | nil =>
      obtain ⟨d, w, rfl⟩ := List.exists_cons_of_ne_nil hne
      cases h
    | cons part A =>
      obtain ⟨rfl, hrest⟩ := List.cons.inj h
      obtain ⟨A', B', hparts, hA, hB, hexec'⟩ := ih hrest
      refine ⟨plain c :: parts.take (n - 1) ++ A', B', ?_, ?_, hB, ?_⟩
      · rw [List.append_assoc, ← hparts, List.cons_append, List.take_append_drop]
      · rw [sources_append, hA]
        rfl
      · rw [shown_cons_plain, List.getLast?_cons] at hexec'
        rw [shown_append, List.getLast?_append, Option.or_assoc, shown_cons_plain,
          List.getLast?_cons, Option.some_or]
        exact hexec'

theorem MatchesAt.of_shown (hr : r ≠ []) (hneutral : p.Neutral r) {A B : List Part} {w : JsString}
    (h : p.MatchesAt (sources A) w (sources B)) : p.MatchesAt (shown r A) w (shown r B) :=
  h.of_nbr hneutral (getLast?_shown hr A) (head?_shown hr B)

/-- Parts show the text with the matches of every pattern replaced. -/
theorem shown_maskEach (hr : r ≠ []) {ps : List Pattern} (hps : ∀ p ∈ ps, p.Excludes r)
    (parts : List Part) :
    shown r (maskEach r ps parts) = replaceEach r ps (shown r parts) := by
  induction ps generalizing parts with
  | nil => rfl
  | cons p ps ih =>
    obtain ⟨hp, hps⟩ := List.forall_mem_cons.1 hps
    exact (ih hps _).trans (congrArg (replaceEach r ps) (shown_maskParts hr hp none parts))

/-- A stretch that is left is, where it stands in the text, a match of no pattern. -/
theorem stretch_of_maskEach (hr : r ≠ []) {ps : List Pattern} (hps : ∀ p ∈ ps, p.Neutral r)
    {parts A B : List Part} {w : JsString} (hne : w ≠ [])
    (h : maskEach r ps parts = A ++ (w.map plain ++ B)) :
    ∃ A' B', parts = A' ++ (w.map plain ++ B') ∧ sources A' = sources A ∧
      sources B' = sources B ∧ ∀ p ∈ ps, ¬p.MatchesAt (sources A) w (sources B) := by
  induction ps generalizing parts with
  | nil => exact ⟨A, B, h, rfl, rfl, by simp⟩
  | cons p ps ih =>
    obtain ⟨hp, hps⟩ := List.forall_mem_cons.1 hps
    obtain ⟨A₁, B₁, hparts, hA₁, hB₁, hrest⟩ := ih hps h
    obtain ⟨A', B', rfl, hA', hB', hexec⟩ := stretch_of_maskParts hne hparts
    refine ⟨A', B', rfl, hA'.trans hA₁, hB'.trans hB₁,
      List.forall_mem_cons.2 ⟨fun hmatch => ?_, hrest⟩⟩
    rw [← hA₁, ← hB₁, ← hA', ← hB'] at hmatch
    have hsome := (hmatch.of_shown hr hp).exec
    rw [Option.or_none] at hexec
    simp [hexec] at hsome

theorem replaceFrom_of_no_exec {prev : Option UInt16} {s : JsString}
    (h : ∀ a b, s = a ++ b → p.exec (a.getLast?.or prev) b = none) :
    p.replaceFrom r prev 0 s = s := by
  induction s generalizing prev with
  | nil => rfl
  | cons c s ih =>
    have hhere : p.exec prev (c :: s) = none := h [] (c :: s) rfl
    rw [replaceFrom, hhere]
    refine congrArg (c :: ·) (ih fun a b hs => ?_)
    rw [← getLast?_cons_or]
    exact h (c :: a) b (by rw [hs]; rfl)

/-- A text that no pattern matches is not changed. -/
theorem replaceEach_of_no_match {ps : List Pattern} {s : JsString}
    (h : ∀ p ∈ ps, ∀ a w b, s = a ++ (w ++ b) → ¬p.MatchesAt a w b) : replaceEach r ps s = s := by
  induction ps with
  | nil => rfl
  | cons p ps ih =>
    obtain ⟨hp, hps⟩ := List.forall_mem_cons.1 h
    have hsame : p.replaceAll r s = s := by
      refine replaceFrom_of_no_exec fun a b hs => ?_
      rw [Option.or_none, Option.eq_none_iff_forall_not_mem]
      intro n hn
      refine hp a (b.take n) (b.drop n) ?_ (exec_eq_some hn).2
      rw [List.take_append_drop, hs]
    have hfold : replaceEach r (p :: ps) s = replaceEach r ps (p.replaceAll r s) := rfl
    rw [hfold, hsame, ih hps]

end Pattern

end TheokitGateways.Js
