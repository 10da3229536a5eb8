import TheokitGateways.Js.Leftmost
import TheokitGateways.Js.Masking

/-!
# The units that replacements take

`replace` with a global pattern takes the matches from the left, each that overlaps
none it has taken. `Takes` and `Replaced` say so of the places of a text, one
pattern after another, with nothing of how a match is searched for or of what comes
into its place. Where the beginning of a match settles its end (`Sharp`), the units
that `maskEach` masks are those that are `Replaced` (`annotates_maskEach`): a text is
left standing where none of its units is (`infix_replaceEach_iff`), and a pattern
matches the output where it refused the text for a unit that is
(`exists_match_replaceEach_iff`).
-/

namespace TheokitGateways.Js

namespace Pattern

section
variable (p : Pattern) (s : JsString) (gone : Nat → Prop)

/-- What is left of a text has one of the pattern from `i` to `j`, and no unit beside it is left
that the pattern refuses there. -/
structure Fits (i j : Nat) : Prop where
  le : j ≤ s.length
  spells : Spells p.pieces ((s.take j).drop i)
  left : ∀ k, i ≤ k → k < j → ¬gone k
  behind : ∀ c, (s.take i).getLast? = some c → p.notAfter c = true → gone (i - 1)
  ahead : ∀ c, (s.drop j).head? = some c → p.notBefore c = true → gone j

/-- A unit is gone after a replacement. -/
def Takes (k : Nat) : Prop :=
  gone k ∨ ∃ i j, Taken (p.Fits s gone) i ∧ p.Fits s gone i j ∧ i ≤ k ∧ k < j

end

/-- A unit is in a match that one of the patterns, applied in order, replaces. -/
def Replaced (ps : List Pattern) (s : JsString) : Nat → Prop :=
  ps.foldl (fun gone p => p.Takes s gone) fun _ => False

/-- The text of the pattern from `i` to `j` is left, and a unit beside it that the pattern refuses
is replaced. -/
structure Uncovered (ps : List Pattern) (p : Pattern) (s : JsString) (i j : Nat) : Prop where
  fits : p.Fits s (Replaced ps s) i j
  refused : (s.take i).getLast?.any p.notAfter = true ∨ (s.drop j).head?.any p.notBefore = true

/-- Where a match begins settles where it ends. -/
def Sharp (p : Pattern) : Prop :=
  ∀ w x, Spells p.pieces w → Spells p.pieces (w ++ x) → x.head?.any p.notBefore = false → x = []

end Pattern

/-- Pieces of which each ends where it must: it is of one length, or the next one begins with a unit
it does not take, or what may follow the last is none it takes. -/
inductive Firm (notBefore : UInt16 → Bool) : List Piece → Prop where
  | nil : Firm notBefore []
  | fixed {q : Piece} {qs : List Piece} (hq : q.max = some q.min) (hqs : Firm notBefore qs) :
    Firm notBefore (q :: qs)
  | parted {q q' : Piece} {qs : List Piece} (hq : ∀ c, q'.admits c = true → q.admits c = false)
    (hmin : 0 < q'.min) (hqs : Firm notBefore (q' :: qs)) : Firm notBefore (q :: q' :: qs)
  | last {q : Piece} (hq : ∀ c, q.admits c = true → notBefore c = true) : Firm notBefore [q]

theorem Piece.Admits.length_eq {q : Piece} (hq : q.max = some q.min) {u : JsString}
    (hu : q.Admits u) : u.length = q.min :=
  Nat.le_antisymm (hu.2.2 _ hq) hu.2.1

/-- The units before one that a class does not take. -/
theorem prefix_of_parted {q : UInt16 → Bool} {u u' v v' : JsString} {c : UInt16}
    (hu' : u'.all q = true) (hc : q c = false) (h : u ++ c :: v = u' ++ v') : u' <+: u := by
  obtain ⟨x, rfl, _⟩ | ⟨x, rfl, hx⟩ := List.append_eq_append_iff.1 h
  · cases x with
    | nil => simp
    | cons d x =>
      have hmem : c ∈ u ++ d :: x := by
        have hhead : c :: v = d :: x ++ v' := by assumption
        cases hhead
        simp
      rw [List.all_eq_true.1 hu' c hmem] at hc
      cases hc
  · exact List.prefix_append _ _

theorem Firm.eq_nil {nb : UInt16 → Bool} {ps : List Piece} (h : Firm nb ps) {w x : JsString}
    (hw : Spells ps w) (hwx : Spells ps (w ++ x)) (hx : x.head?.any nb = false) : x = [] := by
  induction h generalizing w with
  | nil =>
    cases hw
    exact hwx
  | fixed hq hqs ih =>
    obtain ⟨u, v, rfl, hu, hv⟩ := hw
    obtain ⟨u', v', heq, hu', hv'⟩ := hwx
    rw [List.append_assoc] at heq
    obtain ⟨rfl, rfl⟩ := List.append_inj heq ((hu.length_eq hq).trans (hu'.length_eq hq).symm)
    exact ih hv hv'
  | @parted q q' qs hq hmin hqs ih =>
    obtain ⟨u, v, rfl, hu, hv⟩ := hw
    obtain ⟨u', v', heq, hu', hv'⟩ := hwx
    rw [List.append_assoc] at heq
    have hhead {v : JsString} (hv : Spells (q' :: qs) v) :
      ∃ c t, v = c :: t ∧ q.admits c = false := by
      obtain ⟨y, z, rfl, hy, _⟩ := hv
      cases y with
      | nil => exact absurd hy.2.1 (Nat.not_le_of_lt hmin)
      | cons c y => exact ⟨c, y ++ z, rfl, hq c (List.all_eq_true.1 hy.1 c List.mem_cons_self)⟩
    have huu' : u = u' := by
      obtain ⟨c, t, rfl, hc⟩ := hhead hv
      obtain ⟨c', t', rfl, hc'⟩ := hhead hv'
      have hle := prefix_of_parted hu'.1 hc heq
      have hge := prefix_of_parted hu.1 hc' heq.symm
      exact hge.eq_of_length (Nat.le_antisymm hge.length_le hle.length_le)
    subst huu'
    cases List.append_cancel_left heq
    exact ih hv hv'
  | last hq =>
    obtain ⟨u, v, rfl, hu, rfl⟩ := hw
    obtain ⟨u', v', heq, hu', rfl⟩ := hwx
    rw [List.append_nil, List.append_nil] at heq
    cases x with
    | nil => rfl
    | cons c x =>
      have hmem : c ∈ u' := by
        rw [← heq]
        simp
      have hc := hq c (List.all_eq_true.1 hu'.1 c hmem)
      simp [hc] at hx

namespace Pattern
variable {p : Pattern}

theorem sharp_of_firm (h : Firm p.notBefore p.pieces) : p.Sharp :=
  fun _ _ hw hwx hx => h.eq_nil hw hwx hx

/-- A pattern goes on to the first unit that none of its pieces takes. -/
theorem sharp_of_admits
    (h : ∀ q ∈ p.pieces, ∀ c, q.admits c = true → p.notBefore c = true) : p.Sharp := by
  intro w x _ hwx hx
  cases x with
  | nil => rfl
  | cons c x =>
    obtain ⟨q, hq, hadmits⟩ := exists_admits_of_spells hwx
      (List.mem_append_right w List.mem_cons_self)
    have hc := h q hq c hadmits
    simp [hc] at hx

variable {s : JsString} {gone : Nat → Prop} {i j j' : Nat}

theorem Fits.lt (h : p.Fits s gone i j) : i < j := by
  have hpos := length_pos_of_spells p.nonempty h.spells
  rw [List.length_drop, List.length_take] at hpos
  omega

theorem Sharp.eq_of_le (hp : p.Sharp) (h : p.Fits s gone i j) (h' : p.Fits s gone i j')
    (hle : j ≤ j') : j = j' := by
  have hlt := h.lt
  have hsplit : (s.take j').drop i = (s.take j).drop i ++ (s.take j').drop j := by
    have htake : s.take j = (s.take j').take j := by
      rw [List.take_take, Nat.min_eq_left hle]
    rw [htake, ← List.drop_append_of_le_length, List.take_append_drop]
    rw [List.length_take, List.length_take]
    have := h.le
    have := h'.le
    omega
  have hspells := h'.spells
  rw [hsplit] at hspells
  have hnil := hp _ _ h.spells hspells ?_
  · have hlength := congrArg List.length hnil
    rw [List.length_drop, List.length_take] at hlength
    have := h'.le
    rw [List.length_nil] at hlength
    omega
  · by_cases hj : j = j'
    · subst hj
      simp
    · have hlast : ((s.take j').drop j).head? = (s.drop j).head? := by
        rw [List.head?_drop, List.head?_drop, List.getElem?_take_of_lt (by omega)]
      rw [hlast]
      cases hhead : (s.drop j).head? with
      | none => rfl
      | some c =>
        exact Bool.eq_false_iff.2 fun hc =>
          h'.left j (by omega) (by omega) (h.ahead c hhead hc)

theorem Sharp.eq (hp : p.Sharp) (h : p.Fits s gone i j) (h' : p.Fits s gone i j') : j = j' := by
  obtain hle | hle := Nat.le_total j j'
  · exact hp.eq_of_le h h' hle
  · exact (hp.eq_of_le h' h hle).symm

end Pattern

namespace Part

/-- Which units of the text that parts stand for are masked. -/
def marks (parts : List Part) : List Bool :=
  parts.flatMap fun
    | plain _ => [false]
    | masked w => w.map fun _ => true

section
variable (a b : List Part) (c : UInt16) (w : JsString)

@[simp] theorem marks_nil : marks [] = [] := rfl

@[simp] theorem marks_cons_plain : marks (plain c :: a) = false :: marks a := rfl

@[simp] theorem marks_cons_masked :
    marks (masked w :: a) = List.replicate w.length true ++ marks a := by
  rw [← List.map_const']
  rfl

@[simp] theorem marks_append : marks (a ++ b) = marks a ++ marks b := List.flatMap_append

@[simp] theorem marks_map_plain : marks (w.map plain) = List.replicate w.length false := by
  induction w with
  | nil => rfl
  | cons c w ih => exact congrArg (false :: ·) ih

@[simp] theorem length_marks : (marks a).length = (sources a).length := by
  induction a with
  | nil => rfl
  | cons part a ih => cases part <;> simp [ih]

variable {a w} {k : Nat}

/-- The units of a mask are masked. -/
theorem getElem?_marks_masked (hk : k < w.length) : (marks (masked w :: a))[k]? = some true := by
  rw [marks_cons_masked, List.getElem?_append_left (by rwa [List.length_replicate]),
    List.getElem?_replicate_of_lt hk]

/-- Behind a mask stand the units of what follows it. -/
theorem getElem?_marks_behind (hk : w.length ≤ k) :
    (marks (masked w :: a))[k]? = (marks a)[k - w.length]? := by
  rw [marks_cons_masked, List.getElem?_append_right (by rwa [List.length_replicate]),
    List.length_replicate]

end

/-- No mask stands for nothing. -/
def Proper (parts : List Part) : Prop := masked [] ∉ parts

theorem Proper.of_append {a b : List Part} (h : Proper (a ++ b)) : Proper a ∧ Proper b :=
  ⟨fun ha => h (List.mem_append_left b ha), fun hb => h (List.mem_append_right a hb)⟩

theorem Proper.of_cons {part : Part} {parts : List Part} (h : Proper (part :: parts)) :
    Proper parts :=
  fun hmem => h (List.mem_cons_of_mem part hmem)

theorem Proper.ne_nil {w : JsString} {parts : List Part} (h : Proper (masked w :: parts)) :
    w ≠ [] := by
  rintro rfl
  exact h List.mem_cons_self

theorem Proper.eq_nil {parts : List Part} (h : Proper parts) (hnil : sources parts = []) :
    parts = [] := by
  cases parts with
  | nil => rfl
  | cons part parts =>
    cases part with
    | plain c => cases hnil
    | masked w => exact absurd (List.append_eq_nil_iff.1 hnil).1 h.ne_nil

/-- A place in the text is a place between parts if its unit is left. -/
theorem split_of_marks {parts : List Part} {i : Nat} (h : (marks parts)[i]? = some false) :
    ∃ A B, parts = A ++ B ∧ (sources A).length = i := by
  induction parts generalizing i with
  | nil => cases h
  | cons part parts ih =>
    cases i with
    | zero => exact ⟨[], part :: parts, rfl, rfl⟩
    | succ i =>
      cases part with
      | plain c =>
        obtain ⟨A, B, rfl, hA⟩ := ih h
        exact ⟨plain c :: A, B, rfl, congrArg (· + 1) hA⟩
      | masked w =>
        obtain hlt | hle := Nat.lt_or_ge (i + 1) w.length
        · rw [getElem?_marks_masked hlt] at h
          cases h
        · rw [getElem?_marks_behind hle] at h
          obtain ⟨A, B, rfl, hA⟩ := ih h
          refine ⟨masked w :: A, B, rfl, ?_⟩
          rw [sources_cons_masked, List.length_append, hA]
          omega

/-- Units that are left stand side by side. -/
theorem front_of_marks {n : Nat} {parts : List Part} (hproper : Proper parts)
    (h : ∀ k, k < n → (marks parts)[k]? = some false) :
    ∃ (w : JsString) (B : List Part), parts = w.map plain ++ B ∧ w.length = n := by
  induction n generalizing parts with
  | zero => exact ⟨[], parts, rfl, rfl⟩
  | succ n ih =>
    cases parts with
    | nil => cases h 0 (Nat.zero_lt_succ n)
    | cons part parts =>
      cases part with
      | plain c =>
        obtain ⟨w, B, rfl, hw⟩ := ih hproper.of_cons fun k hk => h (k + 1) (Nat.succ_lt_succ hk)
        exact ⟨c :: w, B, rfl, congrArg (· + 1) hw⟩
      | masked w =>
        have hpos := List.length_pos_iff.2 hproper.ne_nil
        have hfirst := h 0 (Nat.zero_lt_succ n)
        rw [getElem?_marks_masked hpos] at hfirst
        cases hfirst

theorem stretch_of_marks {parts : List Part} (hproper : Proper parts) {i j : Nat} (hlt : i < j)
    (h : ∀ k, i ≤ k → k < j → (marks parts)[k]? = some false) :
    ∃ (A : List Part) (w : JsString) (B : List Part), parts = A ++ (w.map plain ++ B) ∧
      (sources A).length = i ∧ i + w.length = j := by
  obtain ⟨A, rest, rfl, hA⟩ := split_of_marks (h i (Nat.le_refl i) hlt)
  have hfront : ∀ k, k < j - i → (marks rest)[k]? = some false := by
    intro k hk
    have hmark := h (i + k) (Nat.le_add_right i k) (by omega)
    rw [marks_append, List.getElem?_append_right (by rw [length_marks]; omega), length_marks, hA,
      Nat.add_sub_cancel_left] at hmark
    exact hmark
  obtain ⟨w, B, rfl, hw⟩ := front_of_marks hproper.of_append.2 hfront
  exact ⟨A, w, B, rfl, hA, by omega⟩

/-- Parts that begin in the same way go as far. -/
theorem append_inj_of_sources {A A' B B' : List Part} (hproper : Proper (A ++ B))
    (h : A ++ B = A' ++ B') (hlength : (sources A).length = (sources A').length) :
    A = A' ∧ B = B' := by
  have hproper' : Proper (A' ++ B') := h ▸ hproper
  have hprefix {A A' X : List Part} (hX : A = A' ++ X) (hA : Proper A)
      (hlength : (sources A).length = (sources A').length) : X = [] := by
    subst hX
    rw [sources_append, List.length_append] at hlength
    exact hA.of_append.2.eq_nil (List.length_eq_zero_iff.1 (by omega))
  obtain ⟨X, rfl, rfl⟩ | ⟨X, rfl, rfl⟩ := List.append_eq_append_iff.1 h
  · obtain rfl := hprefix rfl hproper'.of_append.1 hlength.symm
    simp
  · obtain rfl := hprefix rfl hproper.of_append.1 hlength
    simp

/-- What a class refuses of the last unit before a place, by whether it is left. -/
theorem getLast?_refused {q : UInt16 → Bool} {A : List Part} (hproper : Proper A) :
    (∀ c, A.getLast? = some (plain c) → q c = false) ↔
      ∀ c, (sources A).getLast? = some c → q c = true →
        (marks A)[(sources A).length - 1]? = some true := by
  rw [← length_marks, ← List.getLast?_eq_getElem?]
  obtain rfl | ⟨front, part, rfl⟩ := List.eq_nil_or_concat A
  · simp
  · rw [List.concat_eq_append] at hproper ⊢
    cases part with
    | plain c => simp
    | masked w =>
      have hne : w ≠ [] := hproper.of_append.2.ne_nil
      simp [List.getLast?_append, List.getLast?_replicate, hne]

theorem head?_refused {q : UInt16 → Bool} {B : List Part} (hproper : Proper B) :
    (∀ c, B.head? = some (plain c) → q c = false) ↔
      ∀ c, (sources B).head? = some c → q c = true → (marks B).head? = some true := by
  cases B with
  | nil => simp
  | cons part B =>
    cases part with
    | plain c => simp
    | masked w =>
      have hne : w ≠ [] := hproper.ne_nil
      simp [List.head?_append, List.head?_replicate, hne]

/-- Parts of a text in which what is gone of it is masked. -/
structure Annotates (parts : List Part) (s : JsString) (gone : Nat → Prop) : Prop where
  sources : sources parts = s
  marks : ∀ k, gone k ↔ (marks parts)[k]? = some true
  proper : Proper parts

theorem annotates_map_plain (s : JsString) : Annotates (s.map plain) s fun _ => False where
  sources := sources_map_plain s
  marks k := by
    rw [marks_map_plain, List.getElem?_replicate]
    split <;> simp
  proper hmem := by simp at hmem

variable {parts A B : List Part} {w s : JsString} {gone : Nat → Prop}

theorem Annotates.marks_eq_false (h : Annotates parts s gone) {k : Nat} (hk : k < s.length)
    (hleft : ¬gone k) : (Part.marks parts)[k]? = some false := by
  have hlen : k < (Part.marks parts).length := by rwa [length_marks, h.sources]
  rw [List.getElem?_eq_getElem hlen]
  cases hmark : (Part.marks parts)[k] with
  | false => rfl
  | true => exact absurd ((h.marks k).2 (by rw [List.getElem?_eq_getElem hlen, hmark])) hleft

/-- The text before a stretch, the stretch and the text after it. -/
theorem Annotates.split (h : Annotates (A ++ (w.map plain ++ B)) s gone) :
    s.take (Part.sources A).length = Part.sources A ∧
      (s.take ((Part.sources A).length + w.length)).drop (Part.sources A).length = w ∧
      s.drop ((Part.sources A).length + w.length) = Part.sources B := by
  have hs : s = Part.sources A ++ (w ++ Part.sources B) := by
    rw [← h.sources, sources_append, sources_append, sources_map_plain]
  refine ⟨by rw [hs, List.take_left], ?_, ?_⟩
  · rw [List.drop_take, hs, List.drop_left, Nat.add_sub_cancel_left, List.take_left]
  · rw [hs, ← List.drop_drop, List.drop_left, List.drop_left]

/-- The unit of a stretch that is left is not gone. -/
theorem Annotates.left (h : Annotates (A ++ (w.map plain ++ B)) s gone) {k : Nat}
    (hk : (Part.sources A).length ≤ k) (hlt : k < (Part.sources A).length + w.length) :
    ¬gone k := by
  rw [h.marks, marks_append, List.getElem?_append_right (by rwa [length_marks]), length_marks,
    marks_append, marks_map_plain,
    List.getElem?_append_left (by rw [List.length_replicate]; omega),
    List.getElem?_replicate_of_lt (by omega)]
  simp

end Part

namespace Pattern
open TheokitGateways.Js.Part

variable {p : Pattern} {r s : JsString} {gone : Nat → Prop} {parts : List Part} {i j : Nat}

/-- A text of a pattern that is left is one that the pattern matches between what is shown. -/
theorem fits_iff (hr : r ≠ []) (hneutral : p.Neutral r) (h : Annotates parts s gone) :
    p.Fits s gone i j ↔ ∃ (A : List Part) (w : JsString) (B : List Part),
      parts = A ++ (w.map plain ++ B) ∧ (sources A).length = i ∧ i + w.length = j ∧
        p.MatchesAt (shown r A) w (shown r B) := by
  have hbehind {A B : List Part} (hparts : parts = A ++ B) :
      (shown r A).getLast?.any p.notAfter = false ↔
        ∀ c, (sources A).getLast? = some c → p.notAfter c = true →
          gone ((sources A).length - 1) := by
    rw [getLast?_shown_refused hr (fun c hc => (hneutral c hc).1),
      getLast?_refused (hparts ▸ h.proper).of_append.1]
    refine forall_congr' fun c => imp_congr_right fun hc => imp_congr_right fun _ => ?_
    have hlt : (sources A).length - 1 < (marks A).length := by
      rw [length_marks]
      have := List.length_pos_iff.2 (List.ne_nil_of_mem (List.mem_of_getLast? hc))
      omega
    rw [h.marks, hparts, marks_append, List.getElem?_append_left hlt]
  have hahead {A B : List Part} {w : JsString} (hparts : parts = A ++ (w.map plain ++ B)) :
      (shown r B).head?.any p.notBefore = false ↔
        ∀ c, (sources B).head? = some c → p.notBefore c = true →
          gone ((sources A).length + w.length) := by
    rw [head?_shown_refused hr (fun c hc => (hneutral c hc).2),
      head?_refused (hparts ▸ h.proper).of_append.2.of_append.2]
    refine forall_congr' fun c => imp_congr_right fun hc => imp_congr_right fun _ => ?_
    rw [h.marks, hparts, ← List.append_assoc, marks_append, List.getElem?_append_right (by simp),
      List.head?_eq_getElem?]
    simp
  constructor
  · intro hfits
    obtain ⟨A, w, B, hparts, rfl, rfl⟩ := stretch_of_marks h.proper hfits.lt fun k hk hlt =>
      h.marks_eq_false (Nat.lt_of_lt_of_le hlt hfits.le) (hfits.left k hk hlt)
    obtain ⟨htake, hmid, hdrop⟩ := (hparts ▸ h).split
    obtain ⟨_, hspells, _, hfitsBehind, hfitsAhead⟩ := hfits
    rw [htake] at hfitsBehind
    rw [hmid] at hspells
    rw [hdrop] at hfitsAhead
    exact ⟨A, w, B, hparts, rfl, rfl, (hbehind hparts).2 hfitsBehind, hspells,
      (hahead hparts).2 hfitsAhead⟩
  · rintro ⟨A, w, B, hparts, rfl, rfl, hmatch⟩
    obtain ⟨htake, hmid, hdrop⟩ := (hparts ▸ h).split
    refine ⟨?_, ?_, fun k hk hlt => ?_, ?_, ?_⟩
    · rw [← h.sources, hparts]
      simp
    · rw [hmid]
      exact hmatch.spells
    · exact (hparts ▸ h : Annotates (A ++ (w.map plain ++ B)) s gone).left hk hlt
    · rw [htake]
      exact (hbehind hparts).1 hmatch.behind
    · rw [hdrop]
      exact (hahead hparts).1 hmatch.ahead

/-- A place that no match reaches from before it, and where none begins, is gone only if it was. -/
theorem takes_iff {n : Nat} (h : Settled (p.Fits s gone) n) (hnone : ∀ j, ¬p.Fits s gone n j) :
    p.Takes s gone n ↔ gone n := by
  refine ⟨fun htakes => htakes.resolve_right ?_, .inl⟩
  rintro ⟨i, j, htaken, hfits, hi, hj⟩
  obtain rfl | hlt := Nat.eq_or_lt_of_le hi
  · exact hnone j hfits
  · exact Nat.not_le_of_lt hj (h i hlt htaken j hfits)

theorem marks_middle {before after : List Part} (h : Annotates (before ++ after) s gone) {k : Nat}
    (hk : (sources before).length ≤ k) :
    gone k ↔ (marks after)[k - (sources before).length]? = some true := by
  rw [h.marks, marks_append, List.getElem?_append_right (by rwa [length_marks]), length_marks]

/-- Where `exec` finds a match in what is shown, the pattern fits. -/
theorem fits_of_exec (hr : r ≠ []) (hneutral : p.Neutral r) (hexcludes : p.Excludes r)
    {before after : List Part} {c : UInt16} {n : Nat}
    (h : Annotates (before ++ plain c :: after) s gone)
    (hexec : p.exec (shown r before).getLast? (c :: shown r after) = some n) :
    ∃ (w : JsString) (rest : List Part), after = w.map plain ++ rest ∧ n = w.length + 1 ∧
      p.Fits s gone (sources before).length ((sources before).length + n) := by
  obtain ⟨w, rest, rfl, rfl⟩ := take_of_exec hr hexcludes hexec
  refine ⟨w, rest, rfl, rfl, (fits_iff hr hneutral h).2 ⟨before, c :: w, rest, rfl, rfl, rfl, ?_⟩⟩
  have hmatch := (exec_eq_some hexec).2
  rw [shown_append, shown_map_plain, ← List.cons_append, ← List.length_cons (a := c),
    List.take_left, List.drop_left] at hmatch
  exact hmatch

theorem not_fits_of_exec (hr : r ≠ []) (hneutral : p.Neutral r) {before after : List Part}
    {c : UInt16} (h : Annotates (before ++ plain c :: after) s gone)
    (hexec : p.exec (shown r before).getLast? (c :: shown r after) = none) :
    ∀ j, ¬p.Fits s gone (sources before).length j := by
  intro j hfits
  obtain ⟨A, w, B, hparts, hA, _, hmatch⟩ := (fits_iff hr hneutral h).1 hfits
  obtain ⟨rfl, hrest⟩ := append_inj_of_sources h.proper hparts hA.symm
  have hshown : c :: shown r after = w ++ shown r B := by
    rw [← shown_cons_plain, hrest, shown_append, shown_map_plain]
  have hsome := hmatch.exec
  rw [← hshown, hexec] at hsome
  cases hsome

/-- From a place on, the units that are masked after a replacement are those it takes. -/
theorem marks_maskParts (hr : r ≠ []) (hneutral : p.Neutral r) (hexcludes : p.Excludes r)
    (hsharp : p.Sharp) {before after : List Part} (h : Annotates (before ++ after) s gone)
    (hsettled : Settled (p.Fits s gone) (sources before).length) {k : Nat}
    (hk : (sources before).length ≤ k) :
    (marks (p.maskParts r (shown r before).getLast? after))[k - (sources before).length]? =
      some true ↔ p.Takes s gone k := by
  generalize hprev : (shown r before).getLast? = prev
  fun_induction maskParts p r prev after generalizing before with
  | case1 =>
    have hend : s.length = (sources before).length := by
      rw [← h.sources, List.append_nil]
    refine ⟨fun hmark => by simp at hmark, ?_⟩
    rintro (hgone | ⟨i, j, _, hfits, _, hj⟩)
    · rw [marks_middle h hk] at hgone
      simp at hgone
    · have hle := hfits.le
      omega
  | case2 prev w after ih =>
    have hlength : (sources (before ++ [masked w])).length = (sources before).length +
      w.length := by
      simp
    have hmasked : ∀ i, (sources before).length ≤ i → i < (sources before).length + w.length →
        gone i := by
      intro i hi hlt
      rw [marks_middle h hi, getElem?_marks_masked (by omega)]
    obtain hlt | hge := Nat.lt_or_ge k ((sources before).length + w.length)
    · rw [getElem?_marks_masked (by omega)]
      exact iff_of_true rfl (.inl (hmasked k hk hlt))
    · rw [getElem?_marks_behind (by omega), Nat.sub_sub, ← hlength]
      refine ih (by rw [List.append_assoc]; exact h) ?_ (hlength ▸ hge) ?_
      · rw [hlength]
        refine hsettled.of_none (Nat.le_add_right _ _) fun i hi hlt j hfits => ?_
        exact hfits.left i (Nat.le_refl i) hfits.lt (hmasked i hi hlt)
      · rw [shown_append, List.getLast?_append, hprev]
        simp
  | case3 prev c after hexec ih =>
    rw [← hprev] at hexec
    have hnone := not_fits_of_exec hr hneutral h hexec
    have hlength : (sources (before ++ [plain c])).length = (sources before).length + 1 := by simp
    rw [marks_cons_plain]
    obtain rfl | hlt := Nat.eq_or_lt_of_le hk
    · rw [takes_iff hsettled hnone, marks_middle h (Nat.le_refl _), Nat.sub_self]
      simp
    · have hshift : k - (sources before).length =
          k - (sources (before ++ [plain c])).length + 1 := by omega
      rw [hshift, List.getElem?_cons_succ]
      refine ih (by rw [List.append_assoc]; exact h) ?_ (by omega) ?_
      · rw [hlength]
        refine hsettled.of_none (Nat.le_add_right _ _) fun i hi hlt j hfits => ?_
        obtain rfl : i = (sources before).length := by omega
        exact hnone j hfits
      · rw [shown_append, List.getLast?_append]
        rfl
  | case4 prev c after n hexec ih =>
    rw [← hprev] at hexec
    obtain ⟨w, rest, rfl, rfl, hfits⟩ := fits_of_exec hr hneutral hexcludes h hexec
    have hwlen : w.length = (w.map plain).length := (List.length_map _).symm
    have htake : (w.map plain ++ rest).take (w.length + 1 - 1) = w.map plain := by
      rw [Nat.add_sub_cancel, hwlen, List.take_left]
    have hdrop : (w.map plain ++ rest).drop (w.length + 1 - 1) = rest := by
      rw [Nat.add_sub_cancel, hwlen, List.drop_left]
    have hlength : (sources (before ++ plain c :: w.map plain)).length =
        (sources before).length + (w.length + 1) := by simp
    have hmask : (sources (plain c :: w.map plain)).length = w.length + 1 := by simp
    rw [htake, hdrop] at ih ⊢
    obtain hlt | hge := Nat.lt_or_ge k ((sources before).length + (w.length + 1))
    · rw [getElem?_marks_masked (by omega)]
      exact iff_of_true rfl (.inr ⟨_, _, hsettled.taken hfits, hfits, hk, hlt⟩)
    · rw [getElem?_marks_behind (by omega), hmask, Nat.sub_sub, ← hlength]
      refine ih (by rw [List.append_assoc]; exact h) ?_ (hlength ▸ hge) ?_
      · rw [hlength]
        exact hsettled.of_stretch hfits (Nat.le_of_lt hfits.lt) fun j hj => hsharp.eq hj hfits
      · rw [shown_append, List.getLast?_append, shown_cons_plain, List.getLast?_cons]
        rfl

theorem proper_maskParts {prev : Option UInt16} (h : Proper parts) :
    Proper (p.maskParts r prev parts) := by
  fun_induction maskParts p r prev parts with
  | case1 => exact h
  | case2 prev w parts ih =>
    intro hmem
    obtain heq | hmem := List.mem_cons.1 hmem
    · cases heq
      exact h List.mem_cons_self
    · exact ih h.of_cons hmem
  | case3 prev c parts hexec ih =>
    intro hmem
    obtain heq | hmem := List.mem_cons.1 hmem
    · cases heq
    · exact ih h.of_cons hmem
  | case4 prev c parts n hexec ih =>
    intro hmem
    obtain heq | hmem := List.mem_cons.1 hmem
    · cases heq
    · refine ih (fun hdrop => h ?_) hmem
      exact List.mem_cons_of_mem _ (List.mem_of_mem_drop hdrop)

/-- What one replacement leaves. -/
theorem annotates_maskParts (hr : r ≠ []) (hneutral : p.Neutral r) (hexcludes : p.Excludes r)
    (hsharp : p.Sharp) (h : Annotates parts s gone) :
    Annotates (p.maskParts r none parts) s (p.Takes s gone) where
  sources := (sources_maskParts none parts).trans h.sources
  marks k := (@marks_maskParts p r s gone hr hneutral hexcludes hsharp [] parts h
    (fun _ hi => absurd hi (Nat.not_lt_zero _)) k (Nat.zero_le k)).symm
  proper := proper_maskParts h.proper

/-- Patterns that mask exactly what they replace. -/
structure Masks (r : JsString) (p : Pattern) : Prop where
  neutral : p.Neutral r
  excludes : p.Excludes r
  sharp : p.Sharp

/-- What the replacements of several patterns leave. -/
theorem annotates_maskEach (hr : r ≠ []) {ps : List Pattern} (hps : ∀ p ∈ ps, Masks r p)
    (s : JsString) : Annotates (maskEach r ps (s.map plain)) s (Replaced ps s) := by
  have hall {parts : List Part} {gone : Nat → Prop} (h : Annotates parts s gone) :
      Annotates (maskEach r ps parts) s (ps.foldl (fun gone p => p.Takes s gone) gone) := by
    induction ps generalizing parts gone with
    | nil => exact h
    | cons p ps ih =>
      obtain ⟨hp, hps⟩ := List.forall_mem_cons.1 hps
      exact ih hps (annotates_maskParts hr hp.neutral hp.excludes hp.sharp h)
  exact hall (annotates_map_plain s)

section
variable {ps : List Pattern}

/-- A pattern matches what is left exactly where a replacement uncovers a text of it. -/
theorem exists_match_replaceEach_iff (hr : r ≠ []) (hps : ∀ p ∈ ps, Masks r p) (hp : p ∈ ps) :
    (∃ a w b, replaceEach r ps s = a ++ (w ++ b) ∧ p.MatchesAt a w b) ↔
      ∃ i j, Uncovered ps p s i j := by
  have h := annotates_maskEach hr hps s
  have hshown : shown r (maskEach r ps (s.map plain)) = replaceEach r ps s := by
    rw [shown_maskEach hr fun q hq => (hps q hq).excludes, shown_map_plain]
  constructor
  · rintro ⟨a, w, b, hout, hmatch⟩
    rw [← hshown] at hout
    obtain ⟨A, B, hparts, rfl, rfl⟩ := stretch_of_shown hr hmatch.ne_nil
      (notMem_of_excludes (hps p hp).excludes hmatch.spells) hout
    refine ⟨_, _, (fits_iff hr (hps p hp).neutral h).2 ⟨A, w, B, hparts, rfl, rfl, hmatch⟩, ?_⟩
    obtain ⟨_, _, _, _, _, hnone⟩ :=
      stretch_of_maskEach hr (fun q hq => (hps q hq).neutral) hmatch.ne_nil hparts
    obtain ⟨htake, _, hdrop⟩ := (hparts ▸ h).split
    rw [htake, hdrop]
    by_cases hbefore : (sources A).getLast?.any p.notAfter = true
    · exact .inl hbefore
    · refine .inr (Bool.not_eq_false _ ▸ fun hafter => hnone p hp ?_)
      exact ⟨Bool.eq_false_iff.2 hbefore, hmatch.spells, hafter⟩
  · rintro ⟨i, j, hfits, _⟩
    obtain ⟨A, w, B, hparts, _, _, hmatch⟩ := (fits_iff hr (hps p hp).neutral h).1 hfits
    refine ⟨shown r A, w, shown r B, ?_, hmatch⟩
    rw [← hshown, hparts, shown_append, shown_append, shown_map_plain]

end

end Pattern

end TheokitGateways.Js
