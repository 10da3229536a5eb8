import TheokitGateways.Js.Number

/-!
# Rounding stays below a double

A rational that does not exceed a double is not rounded past it: the double is a
multiple of the rational's unit in the last place, which is no larger than its own.
-/

namespace TheokitGateways.Js.JsNumber

theorem pow2_natCast (n : Nat) : pow2 n = (Nat.pow 2 n : Nat) := by
  rw [pow2, if_pos (Int.natCast_nonneg n), Int.toNat_natCast]

theorem pow2_neg (n : Nat) : pow2 (-n) = 1 / (Nat.pow 2 n : Nat) := by
  unfold pow2
  split
  · obtain rfl : n = 0 := by omega
    decide +kernel
  · rw [Int.neg_neg, Int.toNat_natCast]

theorem two_pow_succ (n : Nat) : Nat.pow 2 (n + 1) = Nat.pow 2 n * 2 := rfl

theorem two_pow_pos (n : Nat) : (0 : Rat) < (Nat.pow 2 n : Nat) :=
  Rat.natCast_pos.2 (Nat.two_pow_pos n)

theorem pow2_pos (k : Int) : 0 < pow2 k := by
  obtain ⟨n, rfl | rfl⟩ := Int.eq_nat_or_neg k
  · rw [pow2_natCast]
    exact two_pow_pos n
  · rw [pow2_neg, Rat.lt_div_iff (two_pow_pos n)]
    grind

theorem pow2_succ (k : Int) : pow2 (k + 1) = 2 * pow2 k := by
  obtain ⟨n, rfl | rfl⟩ := Int.eq_nat_or_neg k
  · have hsucc := pow2_natCast (n + 1)
    rw [two_pow_succ] at hsucc
    push_cast at hsucc
    rw [hsucc, pow2_natCast]
    grind
  · cases n with
    | zero => decide +kernel
    | succ n =>
      have hprev : -((n + 1 : Nat) : Int) + 1 = -(n : Int) := by omega
      have hpos := two_pow_pos n
      rw [hprev, pow2_neg, pow2_neg, two_pow_succ]
      push_cast at hpos ⊢
      grind

theorem pow2_add_natCast (k : Int) (n : Nat) : pow2 (k + n) = (Nat.pow 2 n : Nat) * pow2 k := by
  induction n with
  | zero => simp
  | succ n ih =>
    rw [Int.natCast_succ, ← Int.add_assoc, pow2_succ, ih, two_pow_succ]
    push_cast
    grind

theorem pow2_add (j k : Int) : pow2 (j + k) = pow2 j * pow2 k := by
  obtain ⟨n, rfl | rfl⟩ := Int.eq_nat_or_neg k
  · rw [pow2_add_natCast, pow2_natCast, Rat.mul_comm]
  · have hback := pow2_add_natCast (j + -n) n
    rw [Int.neg_add_cancel_right] at hback
    have hpos := two_pow_pos n
    rw [pow2_neg, hback]
    grind

/-- A power of two is a multiple of those below it. -/
theorem pow2_multiple {j k : Int} (h : j ≤ k) : ∃ m : Nat, 0 < m ∧ pow2 k = m * pow2 j := by
  obtain ⟨n, rfl⟩ := Int.le.dest h
  exact ⟨2 ^ n, Nat.two_pow_pos n, pow2_add_natCast j n⟩

theorem pow2_le {j k : Int} (h : j ≤ k) : pow2 j ≤ pow2 k := by
  obtain ⟨m, hm, heq⟩ := pow2_multiple h
  have hone : (1 : Rat) ≤ m := by exact_mod_cast hm
  have hmul := Rat.mul_le_mul_of_nonneg_right hone (Rat.le_of_lt (pow2_pos j))
  rwa [Rat.one_mul, ← heq] at hmul

theorem pow2_log2_le {n : Nat} (hn : 0 < n) : pow2 n.log2 ≤ n := by
  rw [pow2_natCast]
  exact_mod_cast Nat.log2_self_le (Nat.pos_iff_ne_zero.1 hn)

theorem lt_pow2_log2 (n : Nat) : (n : Rat) < pow2 (n.log2 + 1) := by
  have hcast := pow2_natCast (n.log2 + 1)
  rw [Int.natCast_succ] at hcast
  rw [hcast]
  exact_mod_cast Nat.lt_log2_self

/-- The leading bit of a fraction. -/
theorem leadingBit_spec {n d : Nat} (hn : 0 < n) (hd : 0 < d) :
    pow2 (leadingBit n d) ≤ (n : Rat) / d ∧ (n : Rat) / d < pow2 (leadingBit n d + 1) := by
  have hdpos : (0 : Rat) < d := Rat.natCast_pos.2 hd
  have habove : (n : Rat) / d < pow2 (n.log2 - d.log2 + 1) := by
    have hsum : pow2 (n.log2 + 1) = pow2 (n.log2 - d.log2 + 1) * pow2 d.log2 := by
      rw [← pow2_add]
      congr 1
      omega
    rw [Rat.div_lt_iff hdpos]
    have hle := Rat.mul_le_mul_of_nonneg_left (pow2_log2_le hd)
      (Rat.le_of_lt (pow2_pos (n.log2 - d.log2 + 1)))
    have hlt := lt_pow2_log2 n
    grind
  have hbelow : pow2 (n.log2 - d.log2 - 1) ≤ (n : Rat) / d := by
    have hsum : pow2 n.log2 = pow2 (n.log2 - d.log2 - 1) * pow2 (d.log2 + 1) := by
      rw [← pow2_add]
      congr 1
      omega
    rw [← Rat.not_lt, Rat.div_lt_iff hdpos, Rat.not_lt]
    have hle := Rat.mul_le_mul_of_nonneg_left (Rat.le_of_lt (lt_pow2_log2 d))
      (Rat.le_of_lt (pow2_pos (n.log2 - d.log2 - 1)))
    have hlog := pow2_log2_le hn
    grind
  unfold leadingBit
  by_cases hguess : pow2 ((n.log2 : Int) - d.log2) ≤ (n : Rat) / d
  · rw [if_pos hguess]
    exact ⟨hguess, habove⟩
  · rw [if_neg hguess]
    refine ⟨hbelow, ?_⟩
    rw [Int.sub_add_cancel]
    exact Rat.not_le.1 hguess

/-- The unit in the last place. -/
def ulp (q : Rat) : Rat := pow2 (max (leadingBit q.num.natAbs q.den - 52) (-1074))

theorem ulp_pos (q : Rat) : 0 < ulp q := pow2_pos _

theorem round_eq (q : Rat) (hq : q ≠ 0) : round q =
    let r := roundHalfEven (q / ulp q) * ulp q
    if pow2 1024 ≤ r then .infinite false
    else if r ≤ -pow2 1024 then .infinite true
    else .finite r := by
  rw [round, if_neg hq]
  rfl

theorem leadingBit_mono {p q : Rat} (hp : 0 < p) (h : p ≤ q) :
    leadingBit p.num.natAbs p.den ≤ leadingBit q.num.natAbs q.den := by
  have hspec (r : Rat) (hr : 0 < r) : pow2 (leadingBit r.num.natAbs r.den) ≤ r ∧
      r < pow2 (leadingBit r.num.natAbs r.den + 1) := by
    have hnonneg : 0 ≤ r.num := Rat.num_nonneg.2 (Rat.le_of_lt hr)
    have hnum : r.num ≠ 0 := mt Rat.num_eq_zero.1 (by grind)
    have hbits := leadingBit_spec (n := r.num.natAbs) (d := r.den) (by omega) r.den_pos
    have hfraction : (r.num.natAbs : Rat) / r.den = r := by
      rw [← Rat.intCast_natCast, Int.natAbs_of_nonneg hnonneg, ← Rat.intCast_natCast,
        ← Rat.divInt_eq_div, Rat.num_divInt_den]
    rwa [hfraction] at hbits
  have hlower := (hspec p hp).1
  have hupper := (hspec q (by grind)).2
  by_cases hle : leadingBit p.num.natAbs p.den ≤ leadingBit q.num.natAbs q.den
  · exact hle
  · have hpow := pow2_le (j := leadingBit q.num.natAbs q.den + 1)
      (k := leadingBit p.num.natAbs p.den) (by omega)
    grind

/-- The unit of a larger number is a multiple. -/
theorem ulp_multiple {p q : Rat} (hp : 0 < p) (h : p ≤ q) : ∃ m : Nat, ulp q = m * ulp p := by
  have hbit := leadingBit_mono hp h
  obtain ⟨m, _, hm⟩ := pow2_multiple (j := max (leadingBit p.num.natAbs p.den - 52) (-1074))
    (k := max (leadingBit q.num.natAbs q.den - 52) (-1074)) (by omega)
  exact ⟨m, hm⟩

theorem roundHalfEven_le {q : Rat} {k : Int} (h : q ≤ k) : roundHalfEven q ≤ k := by
  have hfloor : q.floor ≤ k := by
    have hmono := Rat.floor_monotone h
    rwa [Rat.floor_intCast] at hmono
  unfold roundHalfEven
  rcases Int.lt_or_eq_of_le hfloor with hlt | heq
  · grind
  · have hrest : q - q.floor < 1 / 2 := by
      rw [heq]
      grind
    rw [if_pos hrest]
    exact hfloor

/-- A double is a multiple of its unit, and below the first infinite value. -/
theorem double_eq {x : Rat} (hx : x ≠ 0) (hdouble : round x = .finite x) :
    roundHalfEven (x / ulp x) * ulp x = x ∧ x < pow2 1024 := by
  rw [round_eq x hx] at hdouble
  grind

/-- A rational is not rounded past a double. -/
theorem round_le {q x : Rat} (hx : 0 ≤ x) (hdouble : round x = .finite x) (h : q ≤ x) :
    le (round q) (.finite x) = true := by
  by_cases hq : q = 0
  · rw [hq]
    simpa [round, le] using hx
  have hbound : ∃ k : Int, q ≤ k * ulp q ∧ k * ulp q ≤ x := by
    by_cases hneg : q < 0
    · exact ⟨0, by grind, by grind⟩
    · obtain ⟨heq, _⟩ := double_eq (x := x) (by grind) hdouble
      obtain ⟨m, hm⟩ := ulp_multiple (p := q) (q := x) (by grind) h
      refine ⟨roundHalfEven (x / ulp x) * m, ?_, ?_⟩ <;>
        · rw [hm] at heq
          push_cast
          grind
  have hfinite : x < pow2 1024 := by
    by_cases hzero : x = 0
    · rw [hzero]
      exact pow2_pos 1024
    · exact (double_eq hzero hdouble).2
  obtain ⟨k, hqk, hkx⟩ := hbound
  have hdiv : q / ulp q ≤ k := by
    rw [← Rat.not_lt, Rat.lt_div_iff (ulp_pos q), Rat.not_lt]
    exact hqk
  have hround : roundHalfEven (q / ulp q) * ulp q ≤ k * ulp q :=
    Rat.mul_le_mul_of_nonneg_right (by exact_mod_cast roundHalfEven_le hdiv)
      (Rat.le_of_lt (ulp_pos q))
  rw [round_eq q hq]
  simp only
  split
  · grind
  · split
    · rfl
    · simpa [le] using Rat.le_trans hround hkx

/-- A double below a rounded rational is below the rational. -/
theorem lt_of_lt_round {q x : Rat} (hx : 0 ≤ x) (hdouble : round x = .finite x)
    (h : lt (.finite x) (round q) = true) : x < q := by
  rw [← Rat.not_le]
  intro hle
  have hround := round_le hx hdouble hle
  cases hr : round q <;> simp [hr, lt] at h hround
  all_goals exact absurd hround (by simp [h])

end TheokitGateways.Js.JsNumber
