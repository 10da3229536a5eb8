import TheokitGateways.Signal.Emphasis

/-!
# Inline code in a Signal text

Read for its backticks alone, a text is units and code spans (`readCode`). An
emphasis marker pairs with the first one like it after it, also where that one is
in a code span. Where every place at which emphasis closes is outside code the scan
finds the same spans and keeps their content; a closer inside one is removed from
the content (`keepsCode_iff`).
-/

namespace TheokitGateways.Signal

open Js

inductive CodePart where
  | unit (c : UInt16)
  | code (content : JsString)
deriving DecidableEq

/-- The code span that a backtick before `s` opens, and what stands after it. -/
def codeAt (s : JsString) : Option (JsString × JsString) :=
  match cutAt (unit '`') s with
  | none => none
  | some (content, after) =>
    if content = [] then none else if trim content ≠ content then none else some (content, after)

theorem codeAt_eq_some_iff {s content after : JsString} :
    codeAt s = some (content, after) ↔
      s = content ++ unit '`' :: after ∧ unit '`' ∉ content ∧ content ≠ [] ∧
        trim content = content := by
  constructor
  · intro h
    unfold codeAt at h
    split at h
    · cases h
    · rename_i content' after' hcut
      split at h
      · cases h
      · split at h
        · cases h
        · cases h
          obtain ⟨heq, hnot⟩ := eq_of_cutAt hcut
          exact ⟨heq, hnot, ‹_›, Decidable.of_not_not ‹_›⟩
  · rintro ⟨rfl, hnot, hne, htrim⟩
    rw [codeAt, cutAt_append hnot]
    simp [hne, htrim]

theorem length_after_codeAt {s content after : JsString} (h : codeAt s = some (content, after)) :
    after.length < s.length := by
  rw [(codeAt_eq_some_iff.1 h).1, List.length_append, List.length_cons]
  omega

/-- The units and code spans of a text, the leftmost pair of backticks first. -/
def readCode (s : JsString) : List CodePart :=
  match s with
  | [] => []
  | c :: tail =>
    if c = unit '`' then
      match hcode : codeAt tail with
      | none => .unit c :: readCode tail
      | some (content, after) =>
        have : after.length < tail.length := length_after_codeAt hcode
        .code content :: readCode after
    else .unit c :: readCode tail
termination_by s.length
decreasing_by
  · exact Nat.lt_succ_self _
  · exact Nat.lt_succ_of_lt this
  · exact Nat.lt_succ_self _

/-- How many units of the text a part is. -/
def CodePart.size : CodePart → Nat
  | .unit _ => 1
  | .code content => content.length + 2

/-- How many units of the text parts are. -/
def sizes (parts : List CodePart) : Nat := parts.foldr (fun p n => p.size + n) 0

/-- A place between the backticks of a code span. -/
def InCode (parts : List CodePart) (k : Nat) : Prop :=
  ∃ before content after, parts = before ++ .code content :: after ∧
    sizes before < k ∧ k ≤ sizes before + content.length

section Parts

variable {a b : List CodePart} {c : UInt16} {k : Nat}

@[simp] theorem sizes_nil : sizes [] = 0 := rfl

@[simp] theorem sizes_cons (p : CodePart) (parts : List CodePart) :
    sizes (p :: parts) = p.size + sizes parts := rfl

@[simp] theorem sizes_append (a b : List CodePart) : sizes (a ++ b) = sizes a + sizes b := by
  induction a with
  | nil => exact (Nat.zero_add _).symm
  | cons p a ih => rw [List.cons_append, sizes_cons, sizes_cons, ih, Nat.add_assoc]

theorem InCode.append_right (h : InCode a k) (b : List CodePart) : InCode (a ++ b) k := by
  obtain ⟨before, content, after, rfl, hk⟩ := h
  exact ⟨before, content, after ++ b, by simp, hk⟩

theorem InCode.append_left (h : InCode b k) (a : List CodePart) :
    InCode (a ++ b) (sizes a + k) := by
  obtain ⟨before, content, after, rfl, hlt, hle⟩ := h
  refine ⟨a ++ before, content, after, by simp, ?_, ?_⟩ <;> rw [sizes_append] <;> omega

theorem InCode.unit (h : InCode b k) (c : UInt16) : InCode (.unit c :: b) (k + 1) := by
  have hleft := h.append_left [.unit c]
  rwa [sizes_cons, sizes_nil, Nat.add_zero, Nat.add_comm] at hleft

theorem InCode.code (h : InCode b k) (content : JsString) :
    InCode (.code content :: b) (content.length + 2 + k) := by
  have hleft := h.append_left [.code content]
  rwa [sizes_cons, sizes_nil, Nat.add_zero] at hleft

/-- Text without a backtick. -/
def plainParts (s : JsString) : List CodePart := s.map .unit

@[simp] theorem sizes_plainParts (s : JsString) : sizes (plainParts s) = s.length := by
  induction s with
  | nil => rfl
  | cons c s ih =>
    have hsize : (CodePart.unit c).size = 1 := rfl
    rw [plainParts] at ih ⊢
    rw [List.map_cons, sizes_cons, ih, hsize, List.length_cons, Nat.add_comm]

theorem readCode_unit {tail : JsString} (h : c = unit '`' → codeAt tail = none) :
    readCode (c :: tail) = .unit c :: readCode tail := by
  rw [readCode]
  split
  · split
    · rfl
    · simp_all
  · rfl

theorem readCode_code {tail content after : JsString} (h : codeAt tail = some (content, after)) :
    readCode (unit '`' :: tail) = .code content :: readCode after := by
  rw [readCode, if_pos rfl]
  split
  · simp_all
  · rename_i hcode
    cases h.symm.trans hcode
    rfl

theorem readCode_plain {s : JsString} (h : unit '`' ∉ s) (rest : JsString) :
    readCode (s ++ rest) = plainParts s ++ readCode rest := by
  induction s with
  | nil => rfl
  | cons c s ih =>
    rw [List.mem_cons, not_or] at h
    rw [List.cons_append, readCode_unit fun hc => absurd hc.symm h.1, ih h.2]
    rfl

theorem sizes_readCode (s : JsString) : sizes (readCode s) = s.length := by
  fun_induction readCode s with
  | case1 => rfl
  | case2 tail hcode ih => simp [CodePart.size, ih, Nat.add_comm]
  | case3 tail content after hcode _ ih =>
    rw [sizes_cons, ih, (codeAt_eq_some_iff.1 hcode).1]
    simp only [CodePart.size, List.length_cons, List.length_append]
    omega
  | case4 c tail hc ih => simp [CodePart.size, ih, Nat.add_comm]

theorem codeAt_append {s content after : JsString} (h : codeAt s = some (content, after))
    (v : JsString) : codeAt (s ++ v) = some (content, after ++ v) := by
  obtain ⟨rfl, hcontent⟩ := codeAt_eq_some_iff.1 h
  exact codeAt_eq_some_iff.2 ⟨by simp, hcontent⟩

/-- A cut outside code makes no code of a backtick that opens none. -/
theorem codeAt_append_none {tail v : JsString} (hv : v.head? ≠ some (unit '`'))
    (hcut : ¬ InCode (readCode (unit '`' :: (tail ++ v))) (tail.length + 1))
    (h : codeAt tail = none) : codeAt (tail ++ v) = none := by
  rw [Option.eq_none_iff_forall_not_mem]
  rintro ⟨content, after⟩ hcode
  obtain ⟨heq, hcontent⟩ := codeAt_eq_some_iff.1 hcode
  obtain ⟨t, rfl, rfl⟩ | ⟨t, rfl, ht⟩ := List.append_eq_append_iff.1 heq
  · cases t with
    | nil => exact hv rfl
    | cons c t =>
      rw [readCode_code hcode] at hcut
      refine hcut ⟨[], _, _, rfl, Nat.succ_pos _, ?_⟩
      rw [sizes_nil, List.length_append, List.length_cons]
      omega
  · cases t with
    | nil =>
      rw [List.nil_append] at ht
      exact hv (by rw [← ht]; rfl)
    | cons c t =>
      obtain ⟨rfl, _⟩ := List.cons.inj ht
      rw [codeAt_eq_some_iff.2 ⟨rfl, hcontent⟩] at h
      cases h

/-- A text cut outside code, not before a backtick, has the code of both sides. -/
theorem readCode_append {u v : JsString} (hv : v.head? ≠ some (unit '`'))
    (hcut : ¬ InCode (readCode (u ++ v)) u.length) :
    readCode (u ++ v) = readCode u ++ readCode v := by
  fun_induction readCode u with
  | case1 => rfl
  | case2 tail hcode ih =>
    have hnone := codeAt_append_none hv hcut hcode
    rw [List.cons_append, readCode_unit fun _ => hnone] at hcut ⊢
    rw [ih fun hin => hcut (hin.unit _)]
    rfl
  | case3 tail content after hcode _ ih =>
    rw [List.cons_append, readCode_code (codeAt_append hcode v)] at hcut ⊢
    have hlength : (unit '`' :: tail).length = content.length + 2 + after.length := by
      rw [(codeAt_eq_some_iff.1 hcode).1]
      simp only [List.length_cons, List.length_append]
      omega
    rw [hlength] at hcut
    rw [ih fun hin => hcut (hin.code _)]
    rfl
  | case4 c tail hc ih =>
    rw [List.cons_append, readCode_unit fun h => absurd h hc] at hcut ⊢
    rw [ih fun hin => hcut (hin.unit _)]
    rfl

end Parts

/-! ### The parts of a reading -/

theorem not_mem_marker {marker : JsString} {style : Style} (h : (marker, style) ∈ markers)
    (hstyle : style ≠ .monospace) : unit '`' ∉ marker := by
  have hall : ∀ m ∈ markers, m.2 ≠ .monospace → unit '`' ∉ m.1 := by decide
  exact hall _ h hstyle

/-- The units and code spans of a reading, emphasis markers as units. -/
def Reading.parts : Reading → List CodePart
  | nil => []
  | unit c rest => .unit c :: rest.parts
  | code inner rest => .code inner :: rest.parts
  | styled _ marker inside rest =>
    plainParts marker ++ (inside.parts ++ (plainParts marker ++ rest.parts))

section Scan

variable (word : UInt16 → Bool)

/-- At a backtick the scan looks for a code span. -/
theorem runAt_backtick (before : Option UInt16) (tail : JsString) :
    runAt word before (unit '`' :: tail) =
      (codeAt tail).map fun (content, after) => ⟨.monospace, js "`", content, after⟩ := by
  have hdrop : (unit '`' :: tail).drop (js "`").length = tail := rfl
  have hcut : cutAtText (js "`") tail = cutAt (unit '`') tail := cutAtText_singleton _ _
  have hunderscore : js "`" ≠ js "_" := by decide
  unfold runAt codeAt
  rw [find_backtick]
  simp only [hdrop, hcut]
  cases cutAt (unit '`') tail with
  | none => rfl
  | some pair =>
    obtain ⟨content, after⟩ := pair
    by_cases hne : content = []
    · simp only [if_pos hne, Option.map_none]
    · by_cases htrim : trim content = content
      · simp only [if_neg hne, if_neg (not_not_intro htrim),
          if_neg (fun h => hunderscore h.1 : ¬ (js "`" = js "_" ∧ _)), Option.map_some]
      · simp only [if_neg hne, if_pos htrim, Option.map_none]

/-- No emphasis run closes between the backticks of a code span. -/
def SpansOutside (parts : List CodePart) (place : Nat) (spans : List Span) : Prop :=
  ∀ s ∈ spans, s.style ≠ .monospace → ∀ k, InCode parts k → s.closes ≠ place + k

/-- Where no emphasis closes in code, the scan finds the code that the backticks alone make. -/
theorem parts_scan (before : Option UInt16) (rest : JsString) (place start : Nat)
    (h : SpansOutside (readCode rest) place ((scan word before rest).spans place start)) :
    (scan word before rest).parts = readCode rest := by
  fun_induction scan word before rest generalizing place start with
  | case1 => simp [Reading.parts, readCode]
  | case2 before c tail hrun ih =>
    have hcode : c = unit '`' → codeAt tail = none := by
      rintro rfl
      rw [runAt_backtick] at hrun
      simpa using hrun
    rw [readCode_unit hcode] at h ⊢
    rw [Reading.parts, ih (place + 1) (start + 1) fun s hs hstyle k hk => ?_]
    have := h s hs hstyle _ (hk.unit c)
    omega
  | case3 before c tail run hrun _ hstyle ih =>
    obtain ⟨heq, _, _, hmarker⟩ := runAt_eq_some word hrun
    rw [hstyle] at hmarker
    rw [marker_of_monospace hmarker] at heq
    obtain rfl : c = unit '`' := (List.cons.inj heq).1
    rw [runAt_backtick] at hrun
    obtain ⟨⟨content, after⟩, hcode, rfl⟩ := Option.map_eq_some_iff.1 hrun
    rw [readCode_code hcode] at h ⊢
    rw [Reading.parts, ih (place + 1 + content.length + 1) (start + content.length) ?_]
    intro s hs hstyle k hk
    have hclose := h s (List.mem_cons_of_mem _ hs) hstyle _ (hk.code content)
    omega
  | case4 before c tail run hrun _ hstyle ihInside ihRest =>
    obtain ⟨heq, _, _, hmarker⟩ := runAt_eq_some word hrun
    have hbacktick := not_mem_marker hmarker hstyle
    have hlength : (scan word none run.inner).units.length = run.inner.length := by
      rw [← List.length_map (f := Prod.fst), units_scan]
    rw [heq, readCode_plain hbacktick] at h ⊢
    have hcut : ¬ InCode (readCode (run.inner ++ (run.marker ++ run.after))) run.inner.length := by
      intro hin
      have hclose := h _ List.mem_cons_self hstyle _ (hin.append_left (plainParts run.marker))
      rw [sizes_plainParts, hlength] at hclose
      exact hclose (Nat.add_assoc _ _ _)
    have hhead : (run.marker ++ run.after).head? ≠ some (unit '`') := by
      obtain ⟨d, marker, hcons⟩ :=
        List.exists_cons_of_ne_nil (List.length_pos_iff.1 (marker_ne_nil hmarker))
      rw [hcons] at hbacktick ⊢
      rintro ⟨⟩
      exact hbacktick List.mem_cons_self
    rw [readCode_append hhead hcut, readCode_plain hbacktick] at h ⊢
    rw [Reading.parts, ihInside (place + run.marker.length) start ?_,
      ihRest (place + run.marker.length + (scan word none run.inner).units.length +
        run.marker.length) (start + (scan word none run.inner).message.length) ?_]
    · intro s hs hstyle k hk
      have hclose := h s (List.mem_cons_of_mem _ (List.mem_append_right _ hs)) hstyle _
        (((hk.append_left (plainParts run.marker)).append_left (readCode run.inner)).append_left
          (plainParts run.marker))
      simp only [sizes_plainParts, sizes_readCode] at hclose
      omega
    · intro s hs hstyle k hk
      have hclose := h s (List.mem_cons_of_mem _ (List.mem_append_left _ hs)) hstyle _
        ((hk.append_right (plainParts run.marker ++ readCode run.after)).append_left
          (plainParts run.marker))
      rw [sizes_plainParts] at hclose
      omega

end Scan

/-! ### Code in the message -/

theorem plainParts_ne {m : JsString} {rest : List CodePart} {a b : List CodePart}
    {content : JsString} (h : plainParts m ++ rest = a ++ .code content :: b) :
    ∃ a', a = plainParts m ++ a' ∧ rest = a' ++ .code content :: b := by
  obtain ⟨b', hplain⟩ | hright := append_eq_append_cons h
  · have hmem : .code content ∈ plainParts m := by
      rw [hplain]
      simp
    obtain ⟨c, _, hc⟩ := List.mem_map.1 hmem
    cases hc
  · exact hright

/-- A text around a code span, and the run of the span. -/
def CodeInPlace (units : Units) (spans : List Span) (start : Nat) (place : Nat)
    (content : JsString) : Prop :=
  ∃ before after, ∃ s ∈ spans,
    units = before ++ (dropped (js "`") ++ (copied content ++ (dropped (js "`") ++ after))) ∧
    before.length = place ∧ s.style = .monospace ∧ s.start = start + (kept before).length ∧
    s.length = content.length

theorem CodeInPlace.append_left {units : Units} {spans : List Span}
    {start' place : Nat} {content : JsString}
    (h : CodeInPlace units spans start' place content) (before : Units) (start : Nat)
    (hstart : start' = start + (kept before).length) :
    CodeInPlace (before ++ units) spans start (before.length + place) content := by
  obtain ⟨a, b, s, hs, rfl, rfl, hstyle, hplace, hlength⟩ := h
  refine ⟨before ++ a, b, s, hs, by simp, by simp, hstyle, ?_, hlength⟩
  rw [hplace, hstart, kept_append, List.length_append, Nat.add_assoc]

theorem CodeInPlace.append_right {units : Units} {spans : List Span} {start place : Nat}
    {content : JsString} (h : CodeInPlace units spans start place content) (after : Units) :
    CodeInPlace (units ++ after) spans start place content := by
  obtain ⟨a, b, s, hs, rfl, h⟩ := h
  exact ⟨a, b ++ after, s, hs, by simp, h⟩

theorem CodeInPlace.subset {units : Units} {spans spans' : List Span} {start place : Nat}
    {content : JsString} (h : CodeInPlace units spans start place content)
    (hspans : spans ⊆ spans') : CodeInPlace units spans' start place content := by
  obtain ⟨a, b, s, hs, h⟩ := h
  exact ⟨a, b, s, hspans hs, h⟩

theorem sizes_parts (r : Reading) : sizes r.parts = r.units.length := by
  have hbacktick : (js "`").length = 1 := rfl
  induction r with
  | nil => rfl
  | unit c rest ih => simp [Reading.parts, Reading.units, CodePart.size, ih, Nat.add_comm]
  | code inner rest ih =>
    simp [Reading.parts, Reading.units, CodePart.size, ih, hbacktick]
    omega
  | styled style marker inside rest ihInside ihRest =>
    simp [Reading.parts, Reading.units, ihInside, ihRest]

/-- The code spans of a reading stand in the message, each under its run. -/
theorem codeInPlace_of_parts {r : Reading} {a b : List CodePart} {content : JsString}
    (h : r.parts = a ++ .code content :: b) (place start : Nat) :
    CodeInPlace r.units (r.spans place start) start (sizes a) content := by
  induction r generalizing a b place start with
  | nil =>
    cases a <;> cases h
  | unit c rest ih =>
    obtain ⟨a, rfl, hrest⟩ := plainParts_ne (m := [c]) h
    rw [sizes_append, sizes_plainParts]
    exact (ih hrest (place + 1) (start + 1)).append_left [(c, true)] start rfl
  | code inner rest ih =>
    cases a with
    | nil =>
      obtain ⟨hinner, rfl⟩ := List.cons.inj h
      cases hinner
      exact ⟨[], rest.units, _, List.mem_cons_self, rfl, rfl, rfl, rfl, rfl⟩
    | cons p a =>
      obtain ⟨rfl, hrest⟩ := List.cons.inj h
      have hcode := (ih hrest (place + 1 + inner.length + 1) (start + inner.length)).append_left
        (dropped (js "`") ++ (copied inner ++ dropped (js "`"))) start (by simp)
      have hsize : (CodePart.code inner).size =
          (dropped (js "`") ++ (copied inner ++ dropped (js "`"))).length := by
        simp [CodePart.size, js, codeUnits]
        omega
      rw [Reading.units_code, sizes_cons, hsize]
      exact hcode.subset (List.subset_cons_self _ _)
  | styled style marker inside rest ihInside ihRest =>
    have hspans : (Reading.styled style marker inside rest).spans place start = _ := rfl
    obtain ⟨a, rfl, hinside⟩ := plainParts_ne h
    rw [Reading.units_styled]
    obtain ⟨b', hin⟩ | ⟨a, rfl, hafter⟩ := append_eq_append_cons hinside
    · have hcode := ihInside hin (place + marker.length) start
      have hmarker := (hcode.append_right (dropped marker)).append_left (dropped marker) start
        (by simp)
      rw [sizes_append, sizes_plainParts, ← length_dropped]
      refine (hmarker.subset fun s hs => ?_).append_right rest.units
      exact List.mem_cons_of_mem _ (List.mem_append_left _ hs)
    · obtain ⟨a, rfl, hrest⟩ := plainParts_ne hafter
      have hcode := ihRest hrest (place + marker.length + inside.units.length + marker.length)
        (start + inside.message.length)
      have hmarker := hcode.append_left (dropped marker ++ (inside.units ++ dropped marker)) start
        (by simp [Reading.message])
      have hsize : sizes (plainParts marker ++ (inside.parts ++ (plainParts marker ++ a))) =
          (dropped marker ++ (inside.units ++ dropped marker)).length + sizes a := by
        simp [sizes_parts, Nat.add_assoc]
      rw [hsize]
      exact hmarker.subset fun s hs => List.mem_cons_of_mem _ (List.mem_append_right _ hs)

/-! ### Literal code -/

/-- The text is sent with its code as it is: the content of every code span stands in the message
under one `MONOSPACE` range, and no unit of it is removed. -/
def KeepsCode (word : UInt16 → Bool) (text : JsString) : Prop :=
  ∀ a content b, readCode text = a ++ .code content :: b →
    ∃ before after, ∃ s ∈ (scan word none text).spans 0 0,
      (scan word none text).units =
        before ++ (dropped (js "`") ++ (copied content ++ (dropped (js "`") ++ after))) ∧
      before.length = sizes a ∧
      (toTextStyle word text).message = kept before ++ (content ++ kept after) ∧
      s.entry ∈ (toTextStyle word text).textStyle ∧
      s.style = .monospace ∧ s.start = (kept before).length ∧ s.length = content.length ∧
      ∀ t ∈ (scan word none text).spans 0 0, t.style = .monospace →
        t = s ∨ t.stop ≤ s.start ∨ s.stop ≤ t.start

/-- Two runs of code stand apart. -/
theorem code_spans_apart {r : Reading} (hr : r.Sound) (place start : Nat) {s t : Span}
    (hs : s ∈ r.spans place start) (ht : t ∈ r.spans place start)
    (hscode : s.style = .monospace) (htcode : t.style = .monospace) :
    t = s ∨ t.stop ≤ s.start ∨ s.stop ≤ t.start := by
  obtain ⟨l, m, hspans⟩ := List.append_of_mem hs
  have hpairwise := pairwise_spans hr place start
  rw [hspans] at ht hpairwise
  obtain ⟨_, hright, hcross⟩ := List.pairwise_append.1 hpairwise
  obtain ht | ht := List.mem_append.1 ht
  · obtain ⟨_, ⟨hstyle, _⟩ | hstop⟩ := hcross t ht s List.mem_cons_self
    · exact absurd htcode hstyle
    · exact .inr (.inl hstop)
  · obtain rfl | ht := List.mem_cons.1 ht
    · exact .inl rfl
    · obtain ⟨_, ⟨hstyle, _⟩ | hstop⟩ := (List.pairwise_cons.1 hright).1 t ht
      · exact absurd hscode hstyle
      · exact .inr (.inr hstop)

/-- No emphasis of the text closes between the backticks of a code span. -/
def ClosesOutside (word : UInt16 → Bool) (text : JsString) : Prop :=
  ∀ k, Closes word text k → ¬InCode (readCode text) k

theorem keepsCode_of_closesOutside {word : UInt16 → Bool} {text : JsString}
    (h : ClosesOutside word text) : KeepsCode word text := by
  intro a content b hcode
  have houtside : SpansOutside (readCode text) 0 ((scan word none text).spans 0 0) :=
    fun s hs hstyle k hk hcloses =>
      h k ((closes_iff word text k).2 ⟨s, hs, hstyle, by omega⟩) hk
  rw [← parts_scan word none text 0 0 houtside] at hcode
  obtain ⟨before, after, s, hs, hunits, hplace, hstyle, hstart, hlength⟩ :=
    codeInPlace_of_parts hcode 0 0
  refine ⟨before, after, s, hs, hunits, hplace, ?_, ?_, hstyle, ?_, hlength, fun t ht htcode => ?_⟩
  · rw [toTextStyle_eq_scan, Reading.message, hunits]
    simp
  · rw [toTextStyle_eq_scan]
    exact List.mem_map_of_mem hs
  · rw [hstart, Nat.zero_add]
  · exact code_spans_apart (sound_scan word none text) 0 0 hs ht hstyle htcode

/-- A closer is removed, so none is in code that is kept. -/
theorem closesOutside_of_keepsCode {word : UInt16 → Bool} {text : JsString}
    (h : KeepsCode word text) : ClosesOutside word text := by
  rintro k hk ⟨a, content, b, hcode, hlt, hle⟩
  obtain ⟨s, hs, _, hcloses⟩ := (closes_iff word text k).1 hk
  obtain ⟨before, after, _, _, hunits, hplace, _⟩ := h a content b hcode
  obtain ⟨⟨before', opener, between, closer, after', hat, hopens, hcloser, _⟩, _⟩ :=
    inPlace_of_mem_spans (sound_scan word none text) 0 0 hs
  have hdropped : (scan word none text).units[k]? = some (closer, false) := by
    have hk : k = (before' ++ (opener, false) :: between).length := by
      rw [List.length_append, List.length_cons]
      omega
    rw [hat, ← List.cons_append, ← List.append_assoc, hk,
      List.getElem?_append_right (Nat.le_refl _), Nat.sub_self]
    rfl
  have hkept : ∃ c, (scan word none text).units[k]? = some (c, true) := by
    have hopener : (before ++ dropped (js "`")).length = before.length + 1 := by
      simp [js, codeUnits]
    have hinside : k - (before ++ dropped (js "`")).length < (copied content).length := by
      rw [hopener, length_copied]
      omega
    rw [hunits, ← List.append_assoc, List.getElem?_append_right (by omega),
      List.getElem?_append_left hinside, List.getElem?_eq_getElem hinside]
    obtain ⟨c, _, hc⟩ := List.mem_map.1 (List.getElem_mem hinside)
    exact ⟨c, congrArg some hc.symm⟩
  obtain ⟨c, hkept⟩ := hkept
  cases hdropped.symm.trans hkept

/-- Code is sent as it is exactly where no emphasis closes in it. -/
theorem keepsCode_iff (word : UInt16 → Bool) (text : JsString) :
    KeepsCode word text ↔ ClosesOutside word text :=
  ⟨closesOutside_of_keepsCode, keepsCode_of_closesOutside⟩

/-- Emphasis that opens before a code span and closes in it. -/
theorem closes_in_code : ¬ KeepsCode asciiWord (js "*a `b*c` d*") := by
  intro h
  have hcode : readCode (js "*a `b*c` d*") =
      [.unit (unit '*'), .unit (unit 'a'), .unit (unit ' ')] ++
        .code (js "b*c") :: [.unit (unit ' '), .unit (unit 'd'), .unit (unit '*')] := by
    decide +kernel
  have hcloses : Closes asciiWord (js "*a `b*c` d*") 5 :=
    (closes_iff _ _ _).2 (by decide +kernel)
  exact closesOutside_of_keepsCode h 5 hcloses ⟨_, _, _, hcode, by decide, by decide⟩

end TheokitGateways.Signal
