import TheokitGateways.Js.Text

/-!
# Global patterns and their replacement

A pattern is a sequence of classes, each taken some number of times, between a
lookbehind and a lookahead of one unit: the fragment of regular expressions in
which tokens are described. `MatchesAt` says what it matches, `exec` finds a
match by greedy backtracking, and `replaceAll` puts a text in the place of
every match. A match stays one where the units beside it are replaced by units that
the lookarounds let stand (`MatchesAt.of_nbr`).
-/

namespace TheokitGateways.Js

/-- `[admits]{min,max}`. -/
structure Piece where
  admits : UInt16 → Bool
  min : Nat
  max : Option Nat

namespace Piece

def Admits (p : Piece) (w : JsString) : Prop :=
  w.all p.admits = true ∧ p.min ≤ w.length ∧ ∀ n, p.max = some n → w.length ≤ n

/-- How many units the piece takes at most from the front of a text. -/
def reach (p : Piece) (s : JsString) : Nat :=
  let run := (s.takeWhile p.admits).length
  match p.max with
  | none => run
  | some n => Nat.min run n

/-- The counts the piece tries, the greatest first. -/
def counts (p : Piece) (s : JsString) : List Nat :=
  ((List.range (p.reach s + 1)).filter (p.min ≤ ·)).reverse

theorem mem_counts {p : Piece} {s : JsString} {k : Nat} :
    k ∈ p.counts s ↔ p.min ≤ k ∧ k ≤ p.reach s := by
  simp only [counts, List.mem_reverse, List.mem_filter, List.mem_range, decide_eq_true_eq]
  omega

theorem reach_le (p : Piece) (s : JsString) : p.reach s ≤ (s.takeWhile p.admits).length := by
  unfold reach
  split
  · exact Nat.le_refl _
  · exact Nat.min_le_left _ _

theorem Admits.mem_counts {p : Piece} {u : JsString} (h : p.Admits u) (v : JsString) :
    u.length ∈ p.counts (u ++ v) := by
  obtain ⟨hall, hmin, hmax⟩ := h
  refine Piece.mem_counts.2 ⟨hmin, ?_⟩
  have hrun : u.length ≤ ((u ++ v).takeWhile p.admits).length := by
    rw [List.takeWhile_append_of_pos (List.all_eq_true.1 hall), List.length_append]
    omega
  unfold reach
  split
  · exact hrun
  · exact Nat.le_min.2 ⟨hrun, hmax _ ‹_›⟩

theorem admits_take {p : Piece} {s : JsString} {k : Nat} (hk : k ∈ p.counts s) :
    p.Admits (s.take k) ∧ k ≤ s.length := by
  obtain ⟨hmin, hreach⟩ := mem_counts.1 hk
  have hrun : k ≤ (s.takeWhile p.admits).length := Nat.le_trans hreach (reach_le p s)
  have hprefix : s.takeWhile p.admits <+: s := List.takeWhile_prefix _
  have hlen : k ≤ s.length := Nat.le_trans hrun hprefix.length_le
  refine ⟨⟨?_, by simpa [hlen] using hmin, ?_⟩, hlen⟩
  · have htake : s.take k = (s.takeWhile p.admits).take k := by
      rw [List.prefix_iff_eq_take.1 hprefix, List.take_take, Nat.min_eq_left hrun]
    rw [htake]
    refine List.all_eq_true.2 fun c hc => ?_
    exact List.all_eq_true.1 List.all_takeWhile c (List.mem_of_mem_take hc)
  · intro n hn
    have : p.reach s ≤ n := by
      simp only [reach, hn]
      exact Nat.min_le_right _ _
    simp only [List.length_take]
    omega

end Piece

/-- The texts a sequence of pieces takes. -/
def Spells : List Piece → JsString → Prop
  | [], w => w = []
  | p :: ps, w => ∃ u v, w = u ++ v ∧ p.Admits u ∧ Spells ps v

/-- A pattern with the flag `g`. The class on each side must not hold of the unit there. -/
structure Pattern where
  notAfter : UInt16 → Bool
  pieces : List Piece
  notBefore : UInt16 → Bool
  nonempty : ∃ p ∈ pieces, 0 < p.min

/-- The length of the match the pieces find first at the front of a text. -/
def matchPieces (notBefore : UInt16 → Bool) : List Piece → JsString → Option Nat
  | [], s => if s.head?.any notBefore then none else some 0
  | p :: ps, s => (p.counts s).findSome? fun k => (matchPieces notBefore ps (s.drop k)).map (k + ·)

theorem matchPieces_isSome {notBefore : UInt16 → Bool} {ps : List Piece} {w b : JsString}
    (hw : Spells ps w) (hb : b.head?.any notBefore = false) :
    (matchPieces notBefore ps (w ++ b)).isSome = true := by
  induction ps generalizing w with
  | nil =>
    cases hw
    simp [matchPieces, hb]
  | cons p ps ih =>
    obtain ⟨u, v, rfl, hu, hv⟩ := hw
    rw [matchPieces, List.findSome?_isSome_iff, List.append_assoc]
    refine ⟨u.length, hu.mem_counts _, ?_⟩
    rw [List.drop_left, Option.isSome_map]
    exact ih hv

theorem matchPieces_eq_some {notBefore : UInt16 → Bool} {ps : List Piece} {s : JsString} {n : Nat}
    (h : matchPieces notBefore ps s = some n) :
    n ≤ s.length ∧ Spells ps (s.take n) ∧ (s.drop n).head?.any notBefore = false := by
  induction ps generalizing s n with
  | nil =>
    simp only [matchPieces] at h
    split at h
    · cases h
    · cases h
      exact ⟨Nat.zero_le _, rfl, Bool.eq_false_iff.2 ‹¬_›⟩
  | cons p ps ih =>
    obtain ⟨k, hk, hmatch⟩ := List.exists_of_findSome?_eq_some h
    obtain ⟨m, hm, rfl⟩ := Option.map_eq_some_iff.1 hmatch
    obtain ⟨hlen, hspells, hahead⟩ := ih hm
    obtain ⟨htaken, hk⟩ := Piece.admits_take hk
    rw [List.length_drop] at hlen
    refine ⟨by omega, ⟨s.take k, (s.drop k).take m, List.take_add, htaken, hspells⟩, ?_⟩
    rwa [List.drop_drop] at hahead

namespace Pattern

/-- `w` is a match of the pattern between `a` and `b`. -/
structure MatchesAt (p : Pattern) (a w b : JsString) : Prop where
  behind : a.getLast?.any p.notAfter = false
  spells : Spells p.pieces w
  ahead : b.head?.any p.notBefore = false

/-- The length of the match found at the front of a text that follows `prev`. -/
def exec (p : Pattern) (prev : Option UInt16) (s : JsString) : Option Nat :=
  if prev.any p.notAfter then none else matchPieces p.notBefore p.pieces s

theorem MatchesAt.exec {p : Pattern} {a w b : JsString} (h : p.MatchesAt a w b) :
    (p.exec a.getLast? (w ++ b)).isSome = true := by
  rw [Pattern.exec, h.behind]
  exact matchPieces_isSome h.spells h.ahead

theorem exec_eq_some {p : Pattern} {a s : JsString} {n : Nat} (h : p.exec a.getLast? s = some n) :
    n ≤ s.length ∧ p.MatchesAt a (s.take n) (s.drop n) := by
  unfold Pattern.exec at h
  split at h
  · cases h
  · obtain ⟨hlen, hspells, hahead⟩ := matchPieces_eq_some h
    exact ⟨hlen, Bool.eq_false_iff.2 ‹¬_›, hspells, hahead⟩

theorem length_pos_of_spells {ps : List Piece} {w : JsString} (hps : ∃ p ∈ ps, 0 < p.min)
    (hw : Spells ps w) : 0 < w.length := by
  induction ps generalizing w with
  | nil =>
    obtain ⟨_, hp, _⟩ := hps
    cases hp
  | cons p ps ih =>
    obtain ⟨u, v, rfl, ⟨_, hmin, _⟩, hv⟩ := hw
    obtain ⟨q, hq, hpos⟩ := hps
    rw [List.length_append]
    cases hq with
    | head => omega
    | tail _ hq =>
      have := ih ⟨q, hq, hpos⟩ hv
      omega

theorem exists_admits_of_spells {ps : List Piece} {w : JsString} {c : UInt16} (hw : Spells ps w)
    (hc : c ∈ w) : ∃ p ∈ ps, p.admits c = true := by
  induction ps generalizing w with
  | nil =>
    cases hw
    cases hc
  | cons p ps ih =>
    obtain ⟨u, v, rfl, ⟨hall, _⟩, hv⟩ := hw
    obtain hu | hv' := List.mem_append.1 hc
    · exact ⟨p, List.mem_cons_self, List.all_eq_true.1 hall c hu⟩
    · obtain ⟨q, hq, hadmits⟩ := ih hv hv'
      exact ⟨q, List.mem_cons_of_mem _ hq, hadmits⟩

theorem MatchesAt.ne_nil {p : Pattern} {a w b : JsString} (h : p.MatchesAt a w b) : w ≠ [] :=
  List.length_pos_iff.1 (length_pos_of_spells p.nonempty h.spells)

/-- `s.replace(p, r)` from a place that follows `prev`, where the first `skip` units are the rest
of a match. -/
def replaceFrom (p : Pattern) (r : JsString) : Option UInt16 → Nat → JsString → JsString
  | _, _, [] => []
  | _, skip + 1, c :: s => p.replaceFrom r (some c) skip s
  | prev, 0, c :: s =>
    match p.exec prev (c :: s) with
    | some n => r ++ p.replaceFrom r (some c) (n - 1) s
    | none => c :: p.replaceFrom r (some c) 0 s

/-- `s.replace(p, r)`. -/
def replaceAll (p : Pattern) (r s : JsString) : JsString := p.replaceFrom r none 0 s

/-- A neighbour after a replacement is the one before it, or a unit of the replacement. -/
def Nbr (r : JsString) (before after : Option UInt16) : Prop :=
  after = before ∨ ∃ c ∈ r, after = some c

variable {p : Pattern} {r : JsString}

theorem head?_replacement {t : JsString} (hr : r ≠ []) : ∃ c ∈ r, (r ++ t).head? = some c := by
  cases r with
  | nil => contradiction
  | cons c r => exact ⟨c, List.mem_cons_self, rfl⟩

theorem getLast?_cons_or (c : UInt16) (a : JsString) (prev : Option UInt16) :
    (c :: a).getLast?.or prev = a.getLast?.or (some c) := by
  rw [List.getLast?_cons]
  cases a.getLast? <;> rfl

/-- Units a pattern's lookarounds let stand. -/
def Neutral (p : Pattern) (r : JsString) : Prop :=
  ∀ c ∈ r, p.notAfter c = false ∧ p.notBefore c = false

theorem MatchesAt.of_nbr {q : Pattern} {a w b a' b' : JsString} (hq : q.Neutral r)
    (h : q.MatchesAt a w b) (hbefore : Nbr r a.getLast? a'.getLast?)
    (hafter : Nbr r b.head? b'.head?) : q.MatchesAt a' w b' := by
  refine ⟨?_, h.spells, ?_⟩
  · obtain hsame | ⟨c, hc, hnew⟩ := hbefore
    · rw [hsame, h.behind]
    · rw [hnew]
      exact (hq c hc).1
  · obtain hsame | ⟨c, hc, hnew⟩ := hafter
    · rw [hsame, h.ahead]
    · rw [hnew]
      exact (hq c hc).2

/-- Every match of one pattern after another is replaced. -/
def replaceEach (r : JsString) (ps : List Pattern) (s : JsString) : JsString :=
  ps.foldl (fun out p => p.replaceAll r out) s

end Pattern

end TheokitGateways.Js
