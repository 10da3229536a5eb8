import TheokitGateways.Telegram.Split

/-!
# Closed markers in the parts of a Telegram message

A part is trimmed back to before the last marker of a kind when their number is
odd, for one kind after another. A trim leaves an even number of its own marker,
but it may take off one of an earlier kind. So a part has an even number of every
marker exactly where behind the last open marker of no kind there is an odd number
of an earlier one (`even_balanced_iff`, `splitForTelegram_evenly_iff`).
-/

namespace TheokitGateways.Telegram
open Js Gateway

/-! ### Counting -/

theorem isPrefixOf_append_iff {needle u v : JsString} (h : ∀ c ∈ v.head?, c ∉ needle) :
    needle.isPrefixOf (u ++ v) = needle.isPrefixOf u := by
  induction u generalizing needle with
  | nil =>
    cases needle with
    | nil => simp
    | cons d needle =>
      cases v with
      | nil => rfl
      | cons c v =>
        have hne : d ≠ c := by
          rintro rfl
          exact h d rfl List.mem_cons_self
        simp [List.isPrefixOf, hne]
  | cons c u ih =>
    cases needle with
    | nil => rfl
    | cons d needle =>
      rw [List.cons_append, List.isPrefixOf, List.isPrefixOf,
        ih fun x hx hmem => h x hx (List.mem_cons_of_mem _ hmem)]

/-- No occurrence lies across a cut before a unit that the needle does not have. -/
theorem countFrom_append {needle u v : JsString} (h : ∀ c ∈ v.head?, c ∉ needle) {skip : Nat}
    (hskip : skip ≤ u.length) :
    countFrom needle skip (u ++ v) = countFrom needle skip u + countFrom needle 0 v := by
  induction u generalizing skip with
  | nil =>
    obtain rfl : skip = 0 := Nat.le_zero.1 hskip
    simp [countFrom]
  | cons c u ih =>
    cases skip with
    | succ skip => exact ih (Nat.le_of_succ_le_succ hskip)
    | zero =>
      rw [List.cons_append, countFrom, countFrom, ← List.cons_append, isPrefixOf_append_iff h]
      split
      · rename_i hstart
        have hle := (List.isPrefixOf_iff_prefix.1 hstart).length_le
        rw [List.length_cons] at hle
        rw [ih (by omega), Nat.add_assoc]
      · exact ih (Nat.zero_le _)

theorem countOccurrences_append {needle u v : JsString} (h : ∀ c ∈ v.head?, c ∉ needle) :
    countOccurrences (u ++ v) needle = countOccurrences u needle + countOccurrences v needle :=
  countFrom_append h (Nat.zero_le _)

theorem countOccurrences_eq_zero {needle s : JsString} (h : ∀ k, ¬ needle <+: s.drop k) :
    countOccurrences s needle = 0 := by
  unfold countOccurrences
  induction s with
  | nil => rfl
  | cons c s ih =>
    have hno : needle.isPrefixOf (c :: s) = false :=
      Bool.eq_false_iff.2 fun hstart => h 0 (List.isPrefixOf_iff_prefix.1 hstart)
    rw [countFrom, if_neg (Bool.eq_false_iff.1 hno)]
    exact ih fun k => h (k + 1)

theorem countOccurrences_of_notMem {needle s : JsString} (hne : needle ≠ [])
    (h : ∀ c ∈ s, c ∉ needle) : countOccurrences s needle = 0 := by
  refine countOccurrences_eq_zero fun k hstart => ?_
  obtain ⟨c, t, rfl⟩ := List.exists_cons_of_ne_nil hne
  exact h c (List.mem_of_mem_drop (hstart.subset List.mem_cons_self)) List.mem_cons_self

theorem lastFrom_spec (sub s : JsString) (start : Nat) :
    (∃ k : Nat, lastFrom sub s start = k ∧ sub <+: s.drop k ∧
        ∀ j, k < j → j ≤ start → ¬ sub <+: s.drop j) ∨
      lastFrom sub s start = -1 ∧ ∀ j ≤ start, ¬ sub <+: s.drop j := by
  induction start with
  | zero =>
    rw [lastFrom]
    split
    · rename_i hstart
      exact .inl ⟨0, rfl, List.isPrefixOf_iff_prefix.1 hstart, fun j hlt hle => by omega⟩
    · rename_i hno
      refine .inr ⟨rfl, fun j hle hstart => hno ?_⟩
      obtain rfl := Nat.le_zero.1 hle
      exact List.isPrefixOf_iff_prefix.2 hstart
  | succ start ih =>
    rw [lastFrom]
    split
    · rename_i hstart
      exact .inl ⟨start + 1, rfl, List.isPrefixOf_iff_prefix.1 hstart, fun j hlt hle => by omega⟩
    · rename_i hno
      have hlast {j : Nat} (hj : j = start + 1) : ¬ sub <+: s.drop j := by
        rw [hj]
        exact fun hstart => hno (List.isPrefixOf_iff_prefix.2 hstart)
      obtain ⟨k, hk, hstart, hmax⟩ | ⟨hnone, hall⟩ := ih
      · refine .inl ⟨k, hk, hstart, fun j hlt hle => ?_⟩
        by_cases hj : j = start + 1
        · exact hlast hj
        · exact hmax j hlt (by omega)
      · refine .inr ⟨hnone, fun j hle => ?_⟩
        by_cases hj : j = start + 1
        · exact hlast hj
        · exact hall j (by omega)

/-- A needle stands at the start of a text and nowhere further right in it. -/
def LastAt (needle s : JsString) : Prop :=
  needle <+: s ∧ ∀ j, 0 < j → ¬ needle <+: s.drop j

theorem drop_append_of_le {u s : JsString} {j : Nat} (h : u.length ≤ j) :
    (u ++ s).drop j = s.drop (j - u.length) := by
  rw [List.drop_append, List.drop_eq_nil_of_le h, List.nil_append]

/-- `lastIndexOf` finds the last place where the needle stands. -/
theorem lastIndexOf_eq {needle s : JsString} (h : LastAt needle s) (u : JsString) :
    lastIndexOf needle (u ++ s) (u ++ s).length = u.length := by
  have hplace : needle <+: (u ++ s).drop u.length := by
    rw [List.drop_left]
    exact h.1
  have hlater {j : Nat} (hlt : u.length < j) : ¬ needle <+: (u ++ s).drop j := by
    rw [drop_append_of_le (by omega)]
    exact h.2 _ (by omega)
  have hmin : Nat.min (u ++ s).length (u ++ s).length = (u ++ s).length := Nat.min_self _
  rw [lastIndexOf, hmin]
  obtain ⟨k, hk, hstart, hmax⟩ | ⟨_, hall⟩ := lastFrom_spec needle (u ++ s) (u ++ s).length
  · rw [hk]
    have hle : ¬ k < u.length := fun hlt => hmax u.length hlt (by simp) hplace
    have hge : ¬ u.length < k := fun hlt => hlater hlt hstart
    omega
  · exact absurd hplace (hall u.length (by simp))

/-- A needle that stands somewhere stands somewhere last. -/
theorem exists_lastAt {needle s : JsString} (hne : needle ≠ []) {k : Nat}
    (h : needle <+: s.drop k) : ∃ u v, s = u ++ v ∧ LastAt needle v := by
  have hbound {j : Nat} (hj : needle <+: s.drop j) : j ≤ s.length := by
    refine Decidable.byContradiction fun hgt => hne ?_
    rw [List.drop_eq_nil_of_le (by omega)] at hj
    exact List.prefix_nil.1 hj
  obtain ⟨k, _, hstart, hmax⟩ | ⟨_, hall⟩ := lastFrom_spec needle s s.length
  · refine ⟨s.take k, s.drop k, (List.take_append_drop k s).symm, hstart, fun j hpos hj => ?_⟩
    rw [List.drop_drop] at hj
    exact hmax _ (by omega) (hbound hj) hj
  · exact absurd h (hall k (hbound h))

/-! ### One marker -/

/-- A marker is one unit or twice the same, and no white space. -/
def IsMarker (m : JsString) : Prop := ∃ c, isSpace c = false ∧ (m = [c] ∨ m = [c, c])

theorem isMarker_of_mem : ∀ m ∈ markers, IsMarker m := by
  intro m hm
  simp only [markers, List.mem_cons, List.not_mem_nil, or_false] at hm
  obtain rfl | rfl | rfl | rfl := hm
  · exact ⟨unit '*', by decide, .inr rfl⟩
  · exact ⟨unit '_', by decide, .inr rfl⟩
  · exact ⟨unit '~', by decide, .inr rfl⟩
  · exact ⟨unit '`', by decide, .inl rfl⟩

theorem countOccurrences_singleton (c : UInt16) (s : JsString) :
    countOccurrences s [c] = s.count c := by
  unfold countOccurrences
  induction s with
  | nil => rfl
  | cons d s ih =>
    rw [countFrom]
    by_cases h : d = c
    · subst h
      rw [if_pos (by simp), List.count_cons_self, Nat.add_comm]
      exact congrArg (· + 1) ih
    · rw [if_neg (by simp [Ne.symm h]), List.count_cons_of_ne h]
      exact ih

/-- Counting a double unit, step by step. -/
theorem countPair_cons_cons (c x y : UInt16) (s : JsString) :
    countFrom [c, c] 0 (x :: y :: s) =
      if x = c ∧ y = c then 1 + countFrom [c, c] 0 s else countFrom [c, c] 0 (y :: s) := by
  rw [countFrom]
  by_cases h : x = c ∧ y = c
  · obtain ⟨rfl, rfl⟩ := h
    rw [if_pos (by simp [List.isPrefixOf]), if_pos ⟨rfl, rfl⟩]
    rfl
  · rw [if_neg h, if_neg]
    simp only [List.isPrefixOf, Bool.and_true, Bool.and_eq_true, beq_iff_eq]
    exact fun hstart => h ⟨hstart.1.symm, hstart.2.symm⟩

theorem countPair_singleton (c x : UInt16) : countFrom [c, c] 0 [x] = 0 := by
  rw [countFrom, if_neg (by simp [List.isPrefixOf])]
  rfl

/-- The last pair counts one more than what stands before it, even where a pair of that shares a
unit with it. -/
theorem countPair_append {c : UInt16} {w : JsString} (hzero : countFrom [c, c] 0 w = 0)
    (hone : countFrom [c, c] 0 (c :: w) = 0) :
    ∀ u, countFrom [c, c] 0 (u ++ c :: c :: w) = countFrom [c, c] 0 u + 1
  | [] => by
    rw [List.nil_append, countPair_cons_cons, if_pos ⟨rfl, rfl⟩, hzero]
    rfl
  | [x] => by
    rw [List.singleton_append, countPair_cons_cons, countPair_singleton]
    split
    · rw [hone]
    · rw [countPair_cons_cons, if_pos ⟨rfl, rfl⟩, hzero]
  | x :: y :: u => by
    rw [List.cons_append, List.cons_append, countPair_cons_cons, countPair_cons_cons]
    split
    · rw [countPair_append hzero hone u, Nat.add_assoc]
    · exact countPair_append hzero hone (y :: u)

/-- The last marker of a text counts one more than the text before it has. -/
theorem countOccurrences_lastAt {m v : JsString} (hm : IsMarker m) (hlast : LastAt m v)
    (u : JsString) : countOccurrences (u ++ v) m = countOccurrences u m + 1 := by
  obtain ⟨⟨w, rfl⟩, hlater⟩ := hlast
  obtain ⟨c, _, rfl | rfl⟩ := hm
  · have hnot : c ∉ w := by
      intro hmem
      obtain ⟨a, b, rfl⟩ := List.append_of_mem hmem
      refine hlater (a.length + 1) (Nat.succ_pos _) ?_
      simp
    rw [countOccurrences_singleton, countOccurrences_singleton, List.count_append,
      List.singleton_append, List.count_cons_self, List.count_eq_zero.2 hnot]
  · have hzero : countFrom [c, c] 0 w = 0 :=
      countOccurrences_eq_zero fun k => hlater (k + 2) (by omega)
    have hone : countFrom [c, c] 0 (c :: w) = 0 :=
      countOccurrences_eq_zero fun k => hlater (k + 1) (by omega)
    exact countPair_append hzero hone u

theorem IsMarker.ne_nil {m : JsString} (hm : IsMarker m) : m ≠ [] := by
  obtain ⟨d, _, rfl | rfl⟩ := hm <;> simp

theorem IsMarker.notMem_of_space {m w : JsString} (hm : IsMarker m) (hw : w.all isSpace = true) :
    ∀ c ∈ w, c ∉ m := by
  intro c hc hmem
  have hspace : isSpace c = true := List.all_eq_true.1 hw c hc
  obtain ⟨d, hd, rfl | rfl⟩ := hm <;> simp_all

theorem countOccurrences_append_space {m w : JsString} (hm : IsMarker m)
    (hw : w.all isSpace = true) (s : JsString) :
    countOccurrences (s ++ w) m = countOccurrences s m := by
  have hnot := hm.notMem_of_space hw
  rw [countOccurrences_append fun c hc => hnot c (List.mem_of_head? hc),
    countOccurrences_of_notMem hm.ne_nil hnot, Nat.add_zero]

theorem countOccurrences_trimEnd {m : JsString} (hm : IsMarker m) (s : JsString) :
    countOccurrences (trimEnd s) m = countOccurrences s m := by
  obtain ⟨w, hw, hspace⟩ := trimEnd_append s
  have hsum := congrArg (countOccurrences · m) hw
  exact (hsum.trans (countOccurrences_append_space hm hspace _)).symm

/-- White space behind a text has no marker in it. -/
theorem LastAt.append_space {m v w : JsString} (hm : IsMarker m) (h : LastAt m v)
    (hw : w.all isSpace = true) : LastAt m (v ++ w) := by
  refine ⟨h.1.trans (List.prefix_append v w), fun j hj hstart => h.2 j hj ?_⟩
  obtain hle | hlt := Nat.le_total j v.length
  · rw [List.drop_append_of_le_length hle] at hstart
    have hnot := hm.notMem_of_space hw
    rw [← List.isPrefixOf_iff_prefix] at hstart ⊢
    rwa [isPrefixOf_append_iff fun c hc => hnot c (List.mem_of_head? hc)] at hstart
  · rw [drop_append_of_le hlt] at hstart
    obtain ⟨c, t, rfl⟩ := List.exists_cons_of_ne_nil hm.ne_nil
    have hmem := List.mem_of_mem_drop (hstart.subset List.mem_cons_self)
    exact absurd List.mem_cons_self (hm.notMem_of_space hw c hmem)

/-- Where a trim cuts a text, or that it cuts none. -/
theorem balanceMarker_of_lastAt {m v : JsString} (hlast : LastAt m v) (u : JsString)
    (hodd : countOccurrences (u ++ v) m % 2 = 1) : balanceMarker (u ++ v) m = trimEnd u := by
  rw [balanceMarker, if_pos hodd, lastIndexOf_eq hlast, Int.toNat_natCast, List.take_left]

theorem balanceMarker_spec {m : JsString} (hm : IsMarker m) (out : JsString) :
    (countOccurrences out m % 2 = 0 ∧ balanceMarker out m = out) ∨
      ∃ u v, out = u ++ v ∧ LastAt m v ∧ countOccurrences u m % 2 = 0 ∧
        balanceMarker out m = trimEnd u := by
  by_cases hodd : countOccurrences out m % 2 = 1
  · have hsome : ∃ k, m <+: out.drop k := by
      refine Classical.byContradiction fun hnone => ?_
      rw [countOccurrences_eq_zero fun k hk => hnone ⟨k, hk⟩] at hodd
      cases hodd
    have hne : m ≠ [] := by
      obtain ⟨d, _, rfl | rfl⟩ := hm <;> simp
    obtain ⟨k, hk⟩ := hsome
    obtain ⟨u, v, rfl, hlast⟩ := exists_lastAt hne hk
    refine .inr ⟨u, v, rfl, hlast, ?_, balanceMarker_of_lastAt hlast u hodd⟩
    rw [countOccurrences_lastAt hm hlast] at hodd
    omega
  · exact .inl ⟨by omega, if_neg hodd⟩

theorem even_balanceMarker {m : JsString} (hm : IsMarker m) (out : JsString) :
    countOccurrences (balanceMarker out m) m % 2 = 0 := by
  obtain ⟨heven, hsame⟩ | ⟨u, v, _, _, heven, htrim⟩ := balanceMarker_spec hm out
  · rwa [hsame]
  · rwa [htrim, countOccurrences_trimEnd hm]

/-! ### One marker after another -/

/-- What is left of a text when of each kind of marker, in order, the last one is dropped with what
stands behind it if their number is odd. -/
inductive Closing : List JsString → JsString → JsString → Prop where
  | nil (s : JsString) : Closing [] s s
  | even {m : JsString} {ms : List JsString} {s t : JsString}
    (hcount : countOccurrences s m % 2 = 0) (hrest : Closing ms s t) : Closing (m :: ms) s t
  | odd {m : JsString} {ms : List JsString} {u v t : JsString}
    (hcount : countOccurrences (u ++ v) m % 2 = 1) (hlast : LastAt m v) (hrest : Closing ms u t) :
    Closing (m :: ms) (u ++ v) t

/-- Of no kind of marker an odd number stands behind the last of a later kind that is dropped. -/
def ClosesEvenly : List JsString → JsString → Prop
  | [], _ => True
  | m :: ms, s => ∀ u, Closing [m] s u →
      (∀ t v, Closing ms u t → u = t ++ v → countOccurrences v m % 2 = 0) ∧ ClosesEvenly ms u

/-- A last place is the only one. -/
theorem LastAt.eq {m u v u' v' : JsString} (h : LastAt m v) (h' : LastAt m v')
    (heq : u ++ v = u' ++ v') : u = u' := by
  have hplace {u v u' v' : JsString} (hlast : LastAt m v) (hlast' : LastAt m v')
      (heq : u ++ v = u' ++ v') : ¬u.length < u'.length := by
    intro hlt
    have hdrop := congrArg (List.drop u'.length) heq
    rw [List.drop_left, drop_append_of_le (Nat.le_of_lt hlt)] at hdrop
    exact hlast.2 _ (by omega) (hdrop ▸ hlast'.1)
  exact (List.append_inj heq (Nat.le_antisymm (Nat.le_of_not_lt (hplace h' h heq.symm))
    (Nat.le_of_not_lt (hplace h h' heq)))).1

theorem Closing.eq {ms : List JsString} {s t t' : JsString} (h : Closing ms s t)
    (h' : Closing ms s t') : t = t' := by
  induction h generalizing t' with
  | nil s =>
    cases h'
    rfl
  | even hcount hrest ih =>
    cases h' with
    | even hcount' hrest' => exact ih hrest'
    | odd hcount' => omega
  | @odd m ms u v t hcount hlast hrest ih =>
    generalize hs : u ++ v = s at h'
    cases h' with
    | even hcount' => rw [hs] at hcount; omega
    | odd hcount' hlast' hrest' =>
      obtain rfl := hlast.eq hlast' hs
      exact ih hrest'

/-- What is dropped begins with a marker. -/
theorem Closing.dropped {ms : List JsString} {s t : JsString} (h : Closing ms s t) :
    ∃ v, s = t ++ v ∧ (v = [] ∨ ∃ m ∈ ms, m <+: v) := by
  induction h with
  | nil s => exact ⟨[], by simp, .inl rfl⟩
  | even hcount hrest ih =>
    obtain ⟨v, hv, hnil | ⟨m, hm, hstart⟩⟩ := ih
    · exact ⟨v, hv, .inl hnil⟩
    · exact ⟨v, hv, .inr ⟨m, List.mem_cons_of_mem _ hm, hstart⟩⟩
  | @odd m ms u v t hcount hlast hrest ih =>
    obtain ⟨v', rfl, rfl | ⟨m', hm', hstart⟩⟩ := ih
    · exact ⟨v, by simp, .inr ⟨m, List.mem_cons_self, hlast.1⟩⟩
    · exact ⟨v' ++ v, by simp, .inr ⟨m', List.mem_cons_of_mem _ hm',
        hstart.trans (List.prefix_append v' v)⟩⟩

/-- A kind that shares no unit with those that are closed is divided among both sides. -/
theorem Closing.count_eq {m : JsString} {ms : List JsString} {t v : JsString}
    (h : Closing ms (t ++ v) t) (hms : ∀ m ∈ ms, IsMarker m) (hapart : ∀ m' ∈ ms, ∀ c ∈ m, c ∉ m') :
    countOccurrences (t ++ v) m = countOccurrences t m + countOccurrences v m := by
  refine countOccurrences_append fun c hc hmem => ?_
  obtain ⟨v', hv', hstart⟩ := h.dropped
  obtain rfl := List.append_cancel_left hv'
  obtain rfl | ⟨m', hm', hstart⟩ := hstart
  · cases hc
  · obtain ⟨d, rest, rfl⟩ := List.exists_cons_of_ne_nil (hms m' hm').ne_nil
    obtain ⟨tail, rfl⟩ := hstart
    cases hc
    exact hapart _ hm' c hmem List.mem_cons_self

section
variable {s out w : JsString}

/-- A trim leaves what closing leaves, but for white space. -/
theorem closing_balanceMarker {m : JsString} (hm : IsMarker m) (hs : s = out ++ w)
    (hw : w.all isSpace = true) :
    ∃ u w', Closing [m] s u ∧ u = balanceMarker out m ++ w' ∧ w'.all isSpace = true := by
  subst hs
  have hcount := countOccurrences_append_space hm hw out
  obtain ⟨heven, hsame⟩ | ⟨x, v, rfl, hlast, heven, htrim⟩ := balanceMarker_spec hm out
  · exact ⟨_, w, .even (hcount ▸ heven) (.nil _), by rw [hsame], hw⟩
  · obtain ⟨w', hx, hw'⟩ := trimEnd_append x
    refine ⟨x, w', ?_, by rw [htrim]; exact hx, hw'⟩
    have hlast' := hlast.append_space hm hw
    rw [countOccurrences_lastAt hm hlast] at hcount
    rw [List.append_assoc] at hcount ⊢
    exact .odd (by omega) hlast' (.nil _)

theorem Closing.cons {m : JsString} {ms : List JsString} {u t : JsString} (h : Closing [m] s u)
    (hrest : Closing ms u t) : Closing (m :: ms) s t := by
  cases h with
  | even hcount hnil =>
    cases hnil
    exact .even hcount hrest
  | odd hcount hlast hnil =>
    cases hnil
    exact .odd hcount hlast hrest

theorem closing_foldl {ms : List JsString} (hms : ∀ m ∈ ms, IsMarker m) (hs : s = out ++ w)
    (hw : w.all isSpace = true) :
    ∃ t w', Closing ms s t ∧ t = ms.foldl balanceMarker out ++ w' ∧ w'.all isSpace = true := by
  induction ms generalizing s out w with
  | nil => exact ⟨s, w, .nil s, hs, hw⟩
  | cons m ms ih =>
    obtain ⟨hm, hms⟩ := List.forall_mem_cons.1 hms
    obtain ⟨u, w₁, hfirst, hu, hw₁⟩ := closing_balanceMarker hm hs hw
    obtain ⟨t, w₂, hrest, ht, hw₂⟩ := ih hms hu hw₁
    exact ⟨t, w₂, hfirst.cons hrest, ht, hw₂⟩

end

def AllEven (ms : List JsString) (part : JsString) : Prop :=
  ∀ m ∈ ms, countOccurrences part m % 2 = 0

/-- Balancing leaves an even number of every marker exactly where what is dropped for a later kind
has an even number of each earlier one. -/
theorem even_balanced_iff {ms : List JsString} (hms : ∀ m ∈ ms, IsMarker m)
    (hapart : ms.Pairwise fun a b => ∀ c ∈ a, c ∉ b) {s out w : JsString} (hs : s = out ++ w)
    (hw : w.all isSpace = true) :
    AllEven ms (ms.foldl balanceMarker out) ↔ ClosesEvenly ms s := by
  induction ms generalizing s out w with
  | nil => simp [AllEven, ClosesEvenly]
  | cons m ms ih =>
    obtain ⟨hm, hms⟩ := List.forall_mem_cons.1 hms
    obtain ⟨hfirst, hapart⟩ := List.pairwise_cons.1 hapart
    obtain ⟨u, w₁, hclosing, hu, hw₁⟩ := closing_balanceMarker hm hs hw
    obtain ⟨t, w₂, hrest, ht, hw₂⟩ := closing_foldl hms hu hw₁
    have hfinal : countOccurrences (ms.foldl balanceMarker (balanceMarker out m)) m % 2 = 0 ↔
        ∀ t v, Closing ms u t → u = t ++ v → countOccurrences v m % 2 = 0 := by
      have heven := even_balanceMarker hm out
      rw [← countOccurrences_append_space hm hw₁, ← hu] at heven
      rw [← countOccurrences_append_space hm hw₂, ← ht]
      have hsum {v : JsString} (hv : u = t ++ v) :
          countOccurrences u m = countOccurrences t m + countOccurrences v m := by
        subst hv
        exact hrest.count_eq hms hfirst
      obtain ⟨v, hv, _⟩ := hrest.dropped
      constructor
      · intro hcount t' v' hclosing' hv'
        obtain rfl := hrest.eq hclosing'
        have := hsum hv'
        omega
      · intro h
        have := hsum hv
        have := h t v hrest hv
        omega
    rw [AllEven, List.forall_mem_cons, List.foldl_cons, hfinal]
    constructor
    · rintro ⟨heven, hall⟩ u' hclosing'
      obtain rfl := hclosing.eq hclosing'
      exact ⟨heven, (ih hms hapart hu hw₁).1 hall⟩
    · intro h
      obtain ⟨heven, hcloses⟩ := h u hclosing
      exact ⟨heven, (ih hms hapart hu hw₁).2 hcloses⟩

/-! ### The parts of a text -/

/-- What a pass takes before it is balanced. -/
def rawChunk (remaining : JsString) : JsString := remaining.take (lineBoundary remaining)

/-- What a pass leaves. -/
def afterChunk (remaining : JsString) : JsString :=
  (remaining.drop (telegramChunk remaining).length).dropWhile (· == unit '\n')

/-- What each pass begins with that takes a part other than the last. -/
def telegramCuts (text : JsString) : List JsString :=
  (telegramPasses text).filter fun remaining => afterChunk remaining ≠ []

/-- A text is its parts in order, each followed by newlines. -/
def SplitsAtNewlines (text : JsString) (parts : List JsString) : Prop :=
  ∃ stripped : List JsString, stripped.length = parts.length ∧
    (∀ s ∈ stripped, ∀ c ∈ s, c = unit '\n') ∧
    text = (List.zipWith (· ++ ·) parts stripped).flatten

/-- A text is cut into parts that Telegram takes, with closed markers in each part but the last
unless balancing leaves nothing of it. -/
structure SplitEvenly (text : JsString) : Prop where
  fits : ∀ part ∈ splitForTelegram text, part ≠ [] ∧ part.length ≤ 4096
  splits : SplitsAtNewlines text (splitForTelegram text)
  cuts : (splitForTelegram text).dropLast = (telegramCuts text).map telegramChunk
  even : ∀ remaining ∈ telegramCuts text,
    balanceMarkdownPairs (rawChunk remaining) = [] ∨ AllEven markers (telegramChunk remaining)

theorem splitsAtNewlines_cons {text part s : JsString} {parts : List JsString}
    (hs : ∀ c ∈ s, c = unit '\n') (h : SplitsAtNewlines text parts) :
    SplitsAtNewlines (part ++ (s ++ text)) (part :: parts) :=
  followed_cons hs h

/-- Newlines are white space. -/
theorem SplitsAtNewlines.splitsAtSpace {text : JsString} {parts : List JsString}
    (h : SplitsAtNewlines text parts) : SplitsAtSpace text parts := by
  obtain ⟨stripped, hlength, hnewlines, htext⟩ := h
  refine ⟨stripped, hlength, fun s hs => List.all_eq_true.2 fun c hc => ?_, htext⟩
  rw [hnewlines s hs c hc]
  decide

theorem splitsAtNewlines_singleton (text : JsString) : SplitsAtNewlines text [text] :=
  ⟨[[]], rfl, by simp, by simp⟩

/-- A pass takes a part and newlines after it. -/
theorem eq_telegramChunk_append (remaining : JsString) :
    ∃ newlines : JsString, (∀ c ∈ newlines, c = unit '\n') ∧
      remaining = telegramChunk remaining ++ (newlines ++ afterChunk remaining) := by
  refine ⟨(remaining.drop (telegramChunk remaining).length).takeWhile (· == unit '\n'),
    fun c hc => ?_, ?_⟩
  · have hnewline := List.all_eq_true.1 List.all_takeWhile c hc
    exact beq_iff_eq.1 hnewline
  · have hstart := List.prefix_iff_eq_append.1 (telegramChunk_isPrefix remaining)
    rw [afterChunk, List.takeWhile_append_dropWhile, hstart]

theorem telegramChunk_length_le (remaining : JsString) :
    (telegramChunk remaining).length ≤ safeChunk := by
  have hstart : telegramChunk remaining <+: rawChunk remaining := by
    simp only [telegramChunk]
    split
    · exact foldl_balanceMarker_isPrefix _ _
    · exact List.prefix_refl _
  have hlen := hstart.length_le
  rw [rawChunk, List.length_take] at hlen
  have hbounds := lineBoundary_bounds remaining
  omega

theorem telegramLoop_parts (remaining : JsString) :
    (∀ part ∈ telegramLoop remaining, part ≠ [] ∧ part.length ≤ safeChunk) ∧
      SplitsAtNewlines remaining (telegramLoop remaining) := by
  fun_induction telegramLoop remaining with
  | case1 => exact ⟨by simp, [], rfl, by simp, rfl⟩
  | case2 remaining hne hshort =>
    refine ⟨fun part hpart => ?_, splitsAtNewlines_singleton remaining⟩
    obtain rfl := List.mem_singleton.1 hpart
    exact ⟨hne, hshort⟩
  | case3 remaining hne hlong chunk ih =>
    obtain ⟨hparts, hsplits⟩ := ih
    refine ⟨List.forall_mem_cons.2 ⟨⟨?_, telegramChunk_length_le remaining⟩, hparts⟩, ?_⟩
    · exact List.length_pos_iff.1 (telegramChunk_pos hne)
    · obtain ⟨newlines, hnewlines, heq⟩ := eq_telegramChunk_append remaining
      have hcons : SplitsAtNewlines (telegramChunk remaining ++ (newlines ++ afterChunk remaining))
          (telegramChunk remaining :: telegramLoop (afterChunk remaining)) :=
        splitsAtNewlines_cons hnewlines hsplits
      rw [← heq] at hcons
      exact hcons

theorem telegramLoop_ne_nil {remaining : JsString} (h : remaining ≠ []) :
    telegramLoop remaining ≠ [] := by
  rw [telegramLoop, if_neg h]
  split <;> simp

theorem dropLast_telegramLoop (remaining : JsString) :
    (telegramLoop remaining).dropLast =
      ((telegramLoopPasses remaining).filter fun r => afterChunk r ≠ []).map telegramChunk := by
  fun_induction telegramLoop remaining with
  | case1 =>
    rw [telegramLoopPasses, if_neg (by simp)]
    rfl
  | case2 remaining hne hshort =>
    rw [telegramLoopPasses, if_neg (by omega)]
    rfl
  | case3 remaining hne hlong chunk ih =>
    rw [telegramLoopPasses, if_pos (by omega), List.filter_cons]
    split
    · rename_i hafter
      have hafter : afterChunk remaining ≠ [] := by simpa using hafter
      have hloop := telegramLoop_ne_nil hafter
      rw [afterChunk] at hloop
      rw [List.dropLast_cons_of_ne_nil hloop, ih]
      rfl
    · rename_i hafter
      have hafter : afterChunk remaining = [] := by simpa using hafter
      rw [afterChunk] at hafter
      rw [hafter, telegramLoop, if_pos rfl, telegramLoopPasses, if_neg (by simp)]
      rfl

theorem markers_apart : markers.Pairwise fun a b => ∀ c ∈ a, c ∉ b := by
  have hall : markers.Pairwise fun a b => a.all (· ∉ b) = true := by decide
  refine hall.imp fun h => ?_
  simpa only [List.all_eq_true, decide_eq_true_eq] using h

/-- The part of a pass has closed markers, unless balancing leaves nothing, exactly where of no kind
an odd number stands behind the last open marker of a later one. -/
theorem even_telegramChunk_iff (remaining : JsString) :
    (balanceMarkdownPairs (rawChunk remaining) = [] ∨
        AllEven markers (telegramChunk remaining)) ↔
      (balanceMarkdownPairs (rawChunk remaining) = [] ∨
        ClosesEvenly markers (rawChunk remaining)) := by
  by_cases hnil : balanceMarkdownPairs (rawChunk remaining) = []
  · simp [hnil]
  · have hchunk : telegramChunk remaining = markers.foldl balanceMarker (rawChunk remaining) := by
      rw [telegramChunk]
      exact if_pos hnil
    rw [hchunk, even_balanced_iff isMarker_of_mem markers_apart (List.append_nil _).symm rfl]

theorem dropLast_splitForTelegram (text : JsString) :
    (splitForTelegram text).dropLast = (telegramCuts text).map telegramChunk := by
  unfold splitForTelegram telegramCuts telegramPasses
  split
  · rfl
  · exact dropLast_telegramLoop text

theorem splitForTelegram_parts {text : JsString} (hne : text ≠ []) :
    (∀ part ∈ splitForTelegram text, part ≠ [] ∧ part.length ≤ 4096) ∧
      SplitsAtNewlines text (splitForTelegram text) := by
  unfold splitForTelegram
  split
  · refine ⟨fun part hpart => ?_, splitsAtNewlines_singleton text⟩
    obtain rfl := List.mem_singleton.1 hpart
    exact ⟨hne, ‹_›⟩
  · obtain ⟨hparts, hsplits⟩ := telegramLoop_parts text
    refine ⟨fun part hpart => ?_, hsplits⟩
    obtain ⟨hpartNe, hlen⟩ := hparts part hpart
    exact ⟨hpartNe, Nat.le_trans hlen (by decide)⟩

/-- A text is split evenly exactly where, in every pass that takes a part other than the last and
leaves something of it, of no kind of marker an odd number stands behind the last open one of a
later kind. -/
theorem splitForTelegram_evenly_iff {text : JsString} (hne : text ≠ []) :
    SplitEvenly text ↔
      ∀ remaining ∈ telegramCuts text, balanceMarkdownPairs (rawChunk remaining) = [] ∨
        ClosesEvenly markers (rawChunk remaining) := by
  constructor
  · intro h remaining hmem
    exact (even_telegramChunk_iff remaining).1 (h.even remaining hmem)
  · intro h
    obtain ⟨hfits, hsplits⟩ := splitForTelegram_parts hne
    exact ⟨hfits, hsplits, dropLast_splitForTelegram text,
      fun remaining hmem => (even_telegramChunk_iff remaining).2 (h remaining hmem)⟩

/-! ### Texts on one line -/

theorem balanceMarker_of_even {m out : JsString} (h : countOccurrences out m % 2 = 0) :
    balanceMarker out m = out := if_neg (by omega)

theorem lineBoundary_of_notMem {remaining : JsString} (h : unit '\n' ∉ remaining) :
    lineBoundary remaining = safeChunk := by
  have hblank : lastIndexOf (js "\n\n") remaining safeChunk = -1 :=
    lastIndexOf_of_notMem h (js "\n") safeChunk
  have hline : lastIndexOf (js "\n") remaining safeChunk = -1 :=
    lastIndexOf_of_notMem h [] safeChunk
  simp only [lineBoundary, hblank, hline]
  rfl

section
variable {front u v : JsString} {n : Nat}

theorem countOccurrences_filled {m : JsString} (hm : m ≠ []) (he : unit 'e' ∉ m) (front : JsString)
    (n : Nat) :
    countOccurrences (front ++ List.replicate n (unit 'e')) m = countOccurrences front m := by
  have hnot : ∀ c ∈ List.replicate n (unit 'e'), c ∉ m := by
    intro c hc
    rwa [List.eq_of_mem_replicate hc]
  rw [countOccurrences_append fun c hc => hnot c (List.mem_of_head? hc),
    countOccurrences_of_notMem hm hnot, Nat.add_zero]

theorem notMem_filled {c : UInt16} (hc : c ∉ front) (he : c ≠ unit 'e') :
    c ∉ front ++ List.replicate n (unit 'e') := by
  rw [List.mem_append, not_or]
  exact ⟨hc, fun hmem => he (List.eq_of_mem_replicate hmem)⟩

theorem rawChunk_filled (hfront : unit '\n' ∉ front) (hlength : front.length ≤ safeChunk)
    (hn : safeChunk ≤ n) : rawChunk (front ++ List.replicate n (unit 'e')) =
      front ++ List.replicate (safeChunk - front.length) (unit 'e') := by
  rw [rawChunk, lineBoundary_of_notMem (notMem_filled hfront (by decide)), List.take_append,
    List.take_of_length_le hlength, List.take_replicate, Nat.min_eq_left (by omega)]

/-- A text that ends in an open code span is trimmed back to before it. -/
theorem balanced_filled (hv : unit '`' ∉ v)
    (heven : ∀ m ∈ [js "**", js "__", js "~~"], countOccurrences (u ++ (js "`" ++ v)) m % 2 = 0)
    (hodd : countOccurrences (u ++ (js "`" ++ v)) (js "`") % 2 = 1) :
    balanceMarkdownPairs (u ++ (js "`" ++ v) ++ List.replicate n (unit 'e')) = trimEnd u := by
  have hsame : ∀ m ∈ [js "**", js "__", js "~~"],
      balanceMarker (u ++ (js "`" ++ v) ++ List.replicate n (unit 'e')) m =
        u ++ (js "`" ++ v) ++ List.replicate n (unit 'e') := by
    intro m hm
    have hall : ∀ m ∈ [js "**", js "__", js "~~"], m ≠ [] ∧ unit 'e' ∉ m := by decide
    obtain ⟨hne, he⟩ := hall m hm
    refine balanceMarker_of_even ?_
    rw [countOccurrences_filled hne he]
    exact heven m hm
  simp only [List.forall_mem_cons] at hsame
  obtain ⟨hbold, hunderline, hstrike, _⟩ := hsame
  have hlast : LastAt (js "`") (js "`" ++ v ++ List.replicate n (unit 'e')) := by
    refine ⟨⟨_, (List.append_assoc _ _ _).symm⟩, fun j hpos hstart => ?_⟩
    obtain ⟨j, rfl⟩ : ∃ i, j = i + 1 := ⟨j - 1, by omega⟩
    have hmem : unit '`' ∈ v ++ List.replicate n (unit 'e') :=
      List.mem_of_mem_drop (hstart.subset List.mem_cons_self)
    exact notMem_filled hv (by decide) hmem
  rw [balanceMarkdownPairs, markers, List.foldl_cons, hbold, List.foldl_cons, hunderline,
    List.foldl_cons, hstrike, List.foldl_cons, List.append_assoc, balanceMarker_of_lastAt hlast]
  · rfl
  · rwa [← List.append_assoc, countOccurrences_filled (by decide) (by decide)]

theorem telegramChunk_of_balanced {remaining part : JsString} (hne : part ≠ [])
    (h : balanceMarkdownPairs (rawChunk remaining) = part) : telegramChunk remaining = part := by
  rw [rawChunk] at h
  simp only [telegramChunk, h]
  exact if_pos hne

theorem telegramChunk_of_nil {remaining : JsString}
    (h : balanceMarkdownPairs (rawChunk remaining) = []) :
    telegramChunk remaining = rawChunk remaining := by
  rw [rawChunk] at h
  simp only [telegramChunk, h]
  rfl

end

/-- Bold text, and a code span that stays open. -/
def openCode : JsString := js "**a** ` b " ++ List.replicate 4100 (unit 'e')

/-- What is left of it after its first part. -/
def openCodeRest : JsString := js " ` b " ++ List.replicate 4100 (unit 'e')

theorem balanced_openCode : balanceMarkdownPairs (rawChunk openCode) = js "**a**" := by
  have hsplit : js "**a** ` b " = js "**a** " ++ (js "`" ++ js " b ") := rfl
  rw [openCode, rawChunk_filled (by decide) (by decide) (by decide), hsplit,
    balanced_filled (by decide) (by decide) (by decide)]
  decide

theorem balanced_openCodeRest : balanceMarkdownPairs (rawChunk openCodeRest) = [] := by
  have hsplit : js " ` b " = js " " ++ (js "`" ++ js " b ") := rfl
  rw [openCodeRest, rawChunk_filled (by decide) (by decide) (by decide), hsplit,
    balanced_filled (by decide) (by decide) (by decide)]
  decide

theorem afterChunk_openCode : afterChunk openCode = openCodeRest := by
  have hsplit : openCode =
      js "**a**" ++ (unit ' ' :: (js "` b " ++ List.replicate 4100 (unit 'e'))) := rfl
  have hspace : (unit ' ' == unit '\n') = false := by decide
  rw [afterChunk, telegramChunk_of_balanced (by decide) balanced_openCode, hsplit, List.drop_left,
    List.dropWhile_cons, hspace]
  rfl

theorem length_afterChunk_openCodeRest : (afterChunk openCodeRest).length ≤ safeChunk := by
  have hraw : (rawChunk openCodeRest).length = safeChunk := by
    rw [openCodeRest, rawChunk_filled (by decide) (by decide) (by decide), List.length_append,
      List.length_replicate]
    decide
  have hlength : openCodeRest.length = 4105 := by
    rw [openCodeRest, List.length_append, List.length_replicate]
    decide
  rw [afterChunk, telegramChunk_of_nil balanced_openCodeRest, hraw]
  refine Nat.le_trans (List.dropWhile_suffix _).length_le ?_
  rw [List.length_drop, hlength]
  decide

theorem telegramPasses_openCode : telegramPasses openCode = [openCode, openCodeRest] := by
  have hlength : openCode.length = 4110 := by
    rw [openCode, List.length_append, List.length_replicate]
    decide
  have hrest : openCodeRest.length = 4105 := by
    rw [openCodeRest, List.length_append, List.length_replicate]
    decide
  have hlast := length_afterChunk_openCodeRest
  have hfirst := afterChunk_openCode
  rw [afterChunk] at hlast hfirst
  rw [telegramPasses, if_neg (by rw [hlength]; decide), telegramLoopPasses,
    if_pos (by rw [hlength]; decide), hfirst, telegramLoopPasses,
    if_pos (by rw [hrest]; decide), telegramLoopPasses, if_neg (Nat.not_lt_of_le hlast)]

theorem splitForTelegram_evenly_iff_bold : openCode ∈ telegramCuts openCode ∧
    SplitEvenly openCode := by
  have hne : openCode ≠ [] := List.append_ne_nil_of_left_ne_nil (by decide) _
  refine ⟨?_, (splitForTelegram_evenly_iff hne).2 fun remaining hmem => ?_⟩
  · rw [telegramCuts, telegramPasses_openCode]
    refine List.mem_filter.2 ⟨List.mem_cons_self, decide_eq_true ?_⟩
    rw [afterChunk_openCode]
    exact List.append_ne_nil_of_left_ne_nil (by decide) _
  · rw [telegramCuts, telegramPasses_openCode] at hmem
    refine (even_telegramChunk_iff remaining).1 ?_
    obtain rfl | hrest := List.mem_cons.1 (List.mem_filter.1 hmem).1
    · refine .inr ?_
      rw [telegramChunk_of_balanced (by decide) balanced_openCode]
      unfold AllEven
      decide
    · rw [List.mem_singleton.1 hrest]
      exact .inl balanced_openCodeRest

/-- A code span that the window cuts, opened inside bold text that is closed within the window. -/
def codeInBold : JsString := js "a ** b ` c ** d" ++ List.replicate 4100 (unit 'e')

theorem balanced_codeInBold :
    balanceMarkdownPairs (rawChunk codeInBold) = js "a ** b" := by
  have hsplit : js "a ** b ` c ** d" = js "a ** b " ++ (js "`" ++ js " c ** d") := rfl
  rw [codeInBold, rawChunk_filled (by decide) (by decide) (by decide), hsplit,
    balanced_filled (by decide) (by decide) (by decide)]
  decide

theorem telegramChunk_codeInBold : telegramChunk codeInBold = js "a ** b" :=
  telegramChunk_of_balanced (by decide) balanced_codeInBold

/-- The trim for the code takes off the marker that closes the bold text. -/
theorem code_unbalances_bold : ¬ SplitEvenly codeInBold := by
  intro h
  have hlength : codeInBold.length = 4115 := by
    rw [codeInBold, List.length_append, List.length_replicate]
    rfl
  have hafter : afterChunk codeInBold ≠ [] := by
    have hsplit : codeInBold =
        js "a ** b" ++ unit ' ' :: (js "` c ** d" ++ List.replicate 4100 (unit 'e')) := rfl
    have hspace : (unit ' ' == unit '\n') = false := by decide
    rw [afterChunk, telegramChunk_codeInBold, hsplit, List.drop_left, List.dropWhile_cons, hspace]
    exact List.cons_ne_nil _ _
  have hmem : codeInBold ∈ telegramCuts codeInBold := by
    rw [telegramCuts, telegramPasses, if_neg (by rw [hlength]; decide), telegramLoopPasses,
      if_pos (by rw [hlength]; decide)]
    exact List.mem_filter.2 ⟨List.mem_cons_self, by simpa using hafter⟩
  obtain hnil | heven := h.even codeInBold hmem
  · rw [balanced_codeInBold] at hnil
    exact absurd hnil (by decide)
  · rw [telegramChunk_codeInBold] at heven
    exact absurd (heven (js "**") (by decide)) (by decide)

end TheokitGateways.Telegram
