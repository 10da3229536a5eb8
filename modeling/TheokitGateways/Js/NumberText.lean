import Mathlib.Algebra.Group.Nat.Defs
import TheokitGateways.Js.Convert
import TheokitGateways.Js.Rounding

/-!
# A number's text reads back as the number

`String(n)` writes the fewest digits that read back as `n`. Seventeen are always
enough: they are so close to a double that it is the nearest one (`round_near`).
Wherever the point and the exponent stand then, `parseNumber` reads the text as the
number it was written for (`parseNumber_toStr`), and so does `Number`
(`stringToNumber_toStr`).
-/

namespace TheokitGateways.Js

namespace JsNumber
open JsonParser

/-! ### The nearest double -/

theorem leadingBit_rat {r : Rat} (hr : 0 < r) : pow2 (leadingBit r.num.natAbs r.den) ≤ r ∧
    r < pow2 (leadingBit r.num.natAbs r.den + 1) := by
  have hnonneg : 0 ≤ r.num := Rat.num_nonneg.2 (Rat.le_of_lt hr)
  have hnum : r.num ≠ 0 := mt Rat.num_eq_zero.1 (by grind)
  have hbits := leadingBit_spec (n := r.num.natAbs) (d := r.den) (by omega) r.den_pos
  have hfraction : (r.num.natAbs : Rat) / r.den = r := by
    rw [← Rat.intCast_natCast, Int.natAbs_of_nonneg hnonneg, ← Rat.intCast_natCast,
      ← Rat.divInt_eq_div, Rat.num_divInt_den]
  rwa [hfraction] at hbits

/-- A number has 53 bits at most above its unit. -/
theorem lt_ulp {r : Rat} (hr : 0 < r) : r < 9007199254740992 * ulp r := by
  have hbit := (leadingBit_rat hr).2
  have hsum : leadingBit r.num.natAbs r.den + 1 = 53 + (leadingBit r.num.natAbs r.den - 52) := by
    omega
  have hpow : pow2 53 = 9007199254740992 := by decide +kernel
  have hle : pow2 (leadingBit r.num.natAbs r.den - 52) ≤ ulp r := pow2_le (by omega)
  rw [hsum, pow2_add, hpow] at hbit
  grind

theorem roundHalfEven_near {y : Rat} {k : Int} (hbelow : k - 1 / 2 < y) (habove : y < k + 1 / 2) :
    roundHalfEven y = k := by
  have hle := Rat.floor_le y
  have hlt : y < (y.floor + 1 : Int) := Rat.floor_lt_iff.1 (by omega)
  push_cast at hlt
  have hlower : k - 1 ≤ y.floor := by
    have h : ((k - 1 : Int) : Rat) < (y.floor + 1 : Int) := by
      push_cast
      grind
    have := Rat.intCast_lt_intCast.1 h
    omega
  have hupper : y.floor ≤ k := by
    have h : (y.floor : Rat) < (k + 1 : Int) := by
      push_cast
      grind
    have := Rat.intCast_lt_intCast.1 h
    omega
  unfold roundHalfEven
  rcases Int.lt_or_eq_of_le hupper with hlt' | heq
  · have hprev : y.floor = k - 1 := by omega
    have hcast : (y.floor : Rat) = k - 1 := by
      rw [hprev]
      push_cast
      rfl
    dsimp only
    rw [if_neg (by grind), if_pos (by grind)]
    omega
  · dsimp only
    rw [if_pos (by rw [heq]; grind)]
    exact heq

/-- A rational less than a unit above a double has its unit: a power of two between them would be a
multiple of the unit. -/
theorem ulp_eq_of_near {q x : Rat} (hq : 0 < q) (hdouble : round q = .finite q) (hle : q ≤ x)
    (hnear : x < q + ulp q) : ulp x = ulp q := by
  obtain ⟨heq, _⟩ := double_eq (x := q) (by grind) hdouble
  have hmono := leadingBit_mono hq hle
  have hbelow := (leadingBit_rat hq).2
  have habove := (leadingBit_rat (r := x) (by grind)).1
  have hpos := ulp_pos q
  unfold ulp at heq hnear hpos ⊢
  generalize hb : leadingBit q.num.natAbs q.den = b at *
  generalize ha : leadingBit x.num.natAbs x.den = a at *
  generalize he : max (b - 52) (-1074) = e at *
  by_cases hsame : max (a - 52) (-1074) = e
  · rw [hsame]
  · exfalso
    obtain ⟨m, _, hm⟩ := pow2_multiple (j := e) (k := a) (by omega)
    have hpow := pow2_le (j := b + 1) (k := a) (by omega)
    generalize roundHalfEven (q / pow2 e) = r at heq
    have hlt : (r : Rat) * pow2 e < (m : Int) * pow2 e := by
      rw [heq, Rat.intCast_natCast, ← hm]
      grind
    have hint := Rat.intCast_lt_intCast.1 (Rat.lt_of_mul_lt_mul_right hlt (Rat.le_of_lt hpos))
    have hstep : ((r + 1 : Int) : Rat) ≤ (m : Int) := Rat.intCast_le_intCast.2 (by omega)
    have hmul := Rat.mul_le_mul_of_nonneg_right hstep (Rat.le_of_lt hpos)
    push_cast at hmul
    grind

/-- A double is the nearest one to what differs from it by half of its last decimal place out of
seventeen, or less. -/
theorem round_near {q x d : Rat} (hq : 0 < q) (hdouble : round q = .finite q)
    (hplace : d * 10000000000000000 ≤ q) (hbelow : q ≤ x + d / 2) (habove : x ≤ q + d / 2) :
    round x = .finite q := by
  obtain ⟨heq, hfinite⟩ := double_eq (x := q) (by grind) hdouble
  have hx : 0 < x := by grind
  have hulp : d < ulp x := by
    have := lt_ulp hx
    have := ulp_pos x
    grind
  have hmultiple : ∃ k : Int, q = k * ulp x := by
    by_cases hle : x ≤ q
    · obtain ⟨m, hm⟩ := ulp_multiple hx hle
      refine ⟨roundHalfEven (q / ulp q) * m, ?_⟩
      rw [hm] at heq
      push_cast
      grind
    · have hlt := lt_ulp hq
      have hpos := ulp_pos q
      have hsame := ulp_eq_of_near (x := x) hq hdouble (by grind) (by grind)
      exact ⟨roundHalfEven (q / ulp q), by rw [hsame, heq]⟩
  obtain ⟨k, hk⟩ := hmultiple
  have hpos := ulp_pos x
  have hround : roundHalfEven (x / ulp x) = k := by
    apply roundHalfEven_near
    · rw [Rat.lt_div_iff hpos]
      grind
    · rw [Rat.div_lt_iff hpos]
      grind
  rw [round_eq x (by grind), hround]
  dsimp only
  rw [← hk, if_neg (by grind), if_neg]
  have := pow2_pos 1024
  grind

/-- The integer `roundHalfEven` gives, and no other, is near like this. -/
structure HalfEven (y : Rat) (k : Int) : Prop where
  below : k - 1 / 2 ≤ y
  above : y ≤ k + 1 / 2
  even : y = k - 1 / 2 ∨ y = k + 1 / 2 → k % 2 = 0

theorem halfEven_roundHalfEven (y : Rat) : HalfEven y (roundHalfEven y) := by
  have hle := Rat.floor_le y
  have hlt : y < (y.floor + 1 : Int) := Rat.floor_lt_iff.1 (by omega)
  push_cast at hlt
  unfold roundHalfEven
  dsimp only
  split
  · exact ⟨by grind, by grind, by grind⟩
  · split
    · refine ⟨by push_cast; grind, by push_cast; grind, ?_⟩
      push_cast
      grind
    · split
      · exact ⟨by grind, by grind, fun _ => ‹_›⟩
      · exact ⟨by push_cast; grind, by push_cast; grind, fun _ => by omega⟩

theorem HalfEven.unique {y : Rat} {j k : Int} (hj : HalfEven y j) (hk : HalfEven y k) : j = k := by
  have hnear (a b : Int) (ha : HalfEven y a) (hb : HalfEven y b) : a ≤ b + 1 := by
    have hlt : (a : Rat) < (b + 2 : Int) := by
      have := ha.below
      have := hb.above
      push_cast
      grind
    have := Rat.intCast_lt_intCast.1 hlt
    omega
  have hup := hnear j k hj hk
  have hdown := hnear k j hk hj
  -- of two neighbours at most one is even
  have hnext (a b : Int) (ha : HalfEven y a) (hb : HalfEven y b) (hab : a = b + 1) : False := by
    have hcast : (a : Rat) = b + 1 := by
      rw [hab]
      push_cast
      rfl
    have hy : y = a - 1 / 2 := by
      have := ha.below
      have := hb.above
      grind
    have heven := ha.even (.inl hy)
    have hodd := hb.even (.inr (by grind))
    omega
  rcases Int.lt_trichotomy j k with hlt | heq | hgt
  · exact (hnext k j hk hj (by omega)).elim
  · exact heq
  · exact (hnext j k hj hk (by omega)).elim

theorem roundHalfEven_neg (y : Rat) : roundHalfEven (-y) = -roundHalfEven y := by
  have h := halfEven_roundHalfEven y
  refine (halfEven_roundHalfEven (-y)).unique ⟨?_, ?_, fun hy => ?_⟩
  · have := h.above
    push_cast
    grind
  · have := h.below
    push_cast
    grind
  · have heven := h.even
    push_cast at hy
    have : roundHalfEven y % 2 = 0 := heven (by grind)
    omega

theorem round_neg (x : Rat) : round (-x) = (round x).neg := by
  by_cases hx : x = 0
  · subst hx
    decide +kernel
  · have hulp : ulp (-x) = ulp x := by simp [ulp]
    have hdiv : -x / ulp x = -(x / ulp x) := by grind
    have hneg : ((-roundHalfEven (x / ulp x) : Int) : Rat) * ulp x =
        -(roundHalfEven (x / ulp x) * ulp x) := by
      push_cast
      grind
    rw [round_eq x hx, round_eq (-x) (by grind), hulp, hdiv, roundHalfEven_neg]
    dsimp only
    rw [hneg]
    have hpos := pow2_pos 1024
    grind [neg]

/-! ### Digits that read back -/

theorem pow10_natCast (n : Nat) : pow10 n = (Nat.pow 10 n : Nat) := by
  rw [pow10, if_pos (Int.natCast_nonneg n), Int.toNat_natCast]

theorem pow10_eq (k : Int) : pow10 k = (10 : Rat) ^ k := by
  unfold pow10
  split
  · obtain ⟨n, rfl⟩ := Int.eq_ofNat_of_zero_le ‹_›
    rw [Int.toNat_natCast, Rat.zpow_natCast]
    exact Rat.natCast_pow 10 n
  · obtain ⟨n, rfl⟩ := Int.exists_eq_neg_ofNat (a := k) (by omega)
    rw [Int.neg_neg, Int.toNat_natCast, Rat.zpow_neg, Rat.zpow_natCast, Rat.div_def, Rat.one_mul]
    exact congrArg _ (Rat.natCast_pow 10 n)

theorem pow10_pos (k : Int) : 0 < pow10 k := by
  rw [pow10_eq]
  exact Rat.zpow_pos (by decide)

theorem pow10_add (j k : Int) : pow10 (j + k) = pow10 j * pow10 k := by
  rw [pow10_eq, pow10_eq, pow10_eq]
  exact Rat.zpow_add (by decide) j k

/-- A positive double is no smaller than the smallest one. -/
theorem pow2_le_double {q : Rat} (hq : 0 < q) (hdouble : round q = .finite q) :
    pow2 (-1074) ≤ q := by
  obtain ⟨heq, _⟩ := double_eq (x := q) (by grind) hdouble
  have hulp : pow2 (-1074) ≤ ulp q := pow2_le (by omega)
  have hpos := ulp_pos q
  have hint : ((0 : Int) : Rat) * ulp q < roundHalfEven (q / ulp q) * ulp q := by
    rw [heq]
    simpa using hq
  have hone := Rat.intCast_lt_intCast.1 (Rat.lt_of_mul_lt_mul_right hint (Rat.le_of_lt hpos))
  have hle : ((1 : Int) : Rat) ≤ roundHalfEven (q / ulp q) := Rat.intCast_le_intCast.2 (by omega)
  have hmul := Rat.mul_le_mul_of_nonneg_right hle (Rat.le_of_lt hpos)
  push_cast at hmul
  grind

theorem pow10_pred_length_le {n : Nat} (hn : 0 < n) :
    10 ^ ((natText n).length - 1) ≤ n ∧ n < 10 ^ (natText n).length := by
  rw [natText, List.length_map]
  have hpos : 0 < (Nat.toDigits 10 n).length := Nat.length_toDigits_pos
  refine ⟨?_, (Nat.length_toDigits_le_iff (by decide) hpos).1 (Nat.le_refl _)⟩
  by_cases hone : (Nat.toDigits 10 n).length = 1
  · rw [hone]
    exact hn
  · rw [← Nat.not_lt, ← Nat.length_toDigits_le_iff (by decide) (by omega)]
    omega

/-- The decimal point stands behind the first digit but for `decimalPoint q - 1` places. -/
theorem decimalPoint_spec {q : Rat} (hq : pow2 (-1074) ≤ q) :
    pow10 (decimalPoint q - 1) ≤ q ∧ q < pow10 (decimalPoint q) := by
  have hscale : ((Nat.pow 10 400 : Nat) : Rat) = pow10 400 := (pow10_natCast 400).symm
  have hsmall : 1 ≤ pow2 (-1074) * pow10 400 := by decide +kernel
  have hpos := pow10_pos 400
  unfold decimalPoint
  rw [hscale]
  have hone : 1 ≤ q * pow10 400 := by
    have := Rat.mul_le_mul_of_nonneg_right hq (Rat.le_of_lt hpos)
    grind
  generalize hm : (q * pow10 400).floor.toNat = m
  have hfloor : 1 ≤ (q * pow10 400).floor := Rat.le_floor_iff.2 (by simpa using hone)
  have hcast : ((m : Int) : Rat) = (q * pow10 400).floor := by
    rw [← hm, Int.toNat_of_nonneg (by omega)]
  have hbelow : (m : Rat) ≤ q * pow10 400 := by
    rw [← Rat.intCast_natCast, hcast]
    exact Rat.floor_le _
  have habove : q * pow10 400 < m + 1 := by
    have h := Rat.floor_lt_iff.1 (Int.lt_succ (q * pow10 400).floor)
    rw [← Rat.intCast_natCast, hcast]
    simpa using h
  obtain ⟨hlower, hupper⟩ := pow10_pred_length_le (n := m) (by omega)
  have hlen : 0 < (natText m).length := by
    rw [natText, List.length_map]
    exact Nat.length_toDigits_pos
  generalize (natText m).length = l at *
  have hshift (k : Nat) : pow10 (k - 400) * pow10 400 = ((Nat.pow 10 k : Nat) : Rat) := by
    rw [← pow10_add, ← pow10_natCast]
    congr 1
    omega
  constructor
  · have hprev : ((l : Int) - 400 - 1) = ((l - 1 : Nat) : Int) - 400 := by omega
    have hle : ((Nat.pow 10 (l - 1) : Nat) : Rat) ≤ m := Rat.natCast_le_natCast.2 hlower
    rw [hprev]
    refine Rat.le_of_mul_le_mul_right ?_ hpos
    rw [hshift]
    exact Rat.le_trans hle hbelow
  · have hle : ((m + 1 : Nat) : Rat) ≤ (Nat.pow 10 l : Nat) := Rat.natCast_le_natCast.2 hupper
    push_cast at hle
    refine Rat.lt_of_mul_lt_mul_right ?_ (Rat.le_of_lt hpos)
    rw [hshift]
    grind

/-- One of the candidates is within half a place. -/
theorem exists_near_candidate {q : Rat} (hq : 0 ≤ q) (e : Int) : ∃ s ∈ decimalCandidates q e,
    q ≤ (s : Rat) * pow10 e + pow10 e / 2 ∧ (s : Rat) * pow10 e ≤ q + pow10 e / 2 := by
  have hpos := pow10_pos e
  have hfloor : 0 ≤ (q / pow10 e).floor := by
    refine Rat.le_floor_iff.2 (Rat.not_lt.1 fun hneg => ?_)
    rw [Rat.div_lt_iff hpos] at hneg
    grind
  have hle := Rat.floor_le (q / pow10 e)
  have hlt := Rat.floor_lt_iff.1 (Int.lt_succ (q / pow10 e).floor)
  have hcast : (((q / pow10 e).floor.toNat : Nat) : Rat) = (q / pow10 e).floor := by
    rw [← Rat.intCast_natCast, Int.toNat_of_nonneg hfloor]
  have hq' : q = q / pow10 e * pow10 e := by grind
  unfold decimalCandidates
  dsimp only
  rw [hcast]
  push_cast at hlt
  generalize q / pow10 e = y at *
  split
  · rename_i hrest
    have hnear : y ≤ y.floor + 1 / 2 := by
      rcases hrest with hless | ⟨heq, _⟩
      · grind
      · calc
          y = y.floor + 1 / 2 := by grind
          _ ≤ y.floor + 1 / 2 := Rat.le_refl
    have hup := Rat.mul_le_mul_of_nonneg_right hnear (Rat.le_of_lt hpos)
    have hdown := Rat.mul_le_mul_of_nonneg_right hle (Rat.le_of_lt hpos)
    refine ⟨_, List.mem_cons_self, ?_, ?_⟩ <;>
      · rw [hcast]
        grind
  · have hnear : y.floor + 1 / 2 ≤ y := by grind
    have hup := Rat.mul_le_mul_of_nonneg_right hnear (Rat.le_of_lt hpos)
    have hdown := Rat.mul_le_mul_of_nonneg_right (Rat.le_of_lt hlt) (Rat.le_of_lt hpos)
    refine ⟨_, List.mem_cons_self, ?_, ?_⟩ <;>
      · push_cast
        rw [hcast]
        grind

/-- Seventeen digits are enough. -/
theorem round_shortestDigits {q : Rat} (hq : 0 < q) (hdouble : round q = .finite q) {tries k : Nat}
    (htries : 0 < tries) (hk : tries + k = 18) :
    round ((shortestDigits q (decimalPoint q) tries k).1 *
      pow10 (shortestDigits q (decimalPoint q) tries k).2) = .finite q := by
  induction tries generalizing k with
  | zero => omega
  | succ tries ih =>
    rw [shortestDigits]
    split
    · rename_i s hs
      have hreads := List.find?_some hs
      exact of_decide_eq_true hreads
    · rename_i hnone
      cases tries with
      | zero =>
        obtain ⟨s, hs, hbelow, habove⟩ :=
          exists_near_candidate (Rat.le_of_lt hq) (decimalPoint q - k)
        have hfirst := (decimalPoint_spec (pow2_le_double hq hdouble)).1
        have hsplit : decimalPoint q - 1 = (decimalPoint q - k) + 16 := by omega
        have hsixteen : pow10 16 = 10000000000000000 := by decide +kernel
        rw [hsplit, pow10_add, hsixteen] at hfirst
        have hreads := round_near hq hdouble hfirst hbelow habove
        have hno := List.find?_eq_none.1 hnone s hs
        simp [hreads] at hno
      | succ tries => exact ih (by omega) (by omega)

end JsNumber

namespace JsonParser

/-! ### Digits -/

def AreDigits (ds : JsString) : Prop := ∀ c ∈ ds, isDigit c = true

/-- What follows a number does not go on with it. -/
def EndsNumber (r : JsString) : Prop :=
  ∀ c ∈ r.head?, isDigit c = false ∧ c ≠ unit '.' ∧ c ≠ unit 'e' ∧ c ≠ unit 'E'

theorem areDigits_natText (n : Nat) : AreDigits (natText n) := by
  intro c hc
  refine Bool.of_not_eq_false fun h => ?_
  exact notMem_natText h n hc

theorem digits_append {ds r : JsString} (hds : AreDigits ds)
    (hr : ∀ c ∈ r.head?, isDigit c = false) :
    digits (ds ++ r) = ds ∧ afterDigits (ds ++ r) = r := by
  have hr' : digits r = [] ∧ afterDigits r = r := by
    cases r with
    | nil => exact ⟨rfl, rfl⟩
    | cons c r =>
      have hc := hr c rfl
      simp [digits, afterDigits, hc]
  unfold digits afterDigits at *
  rw [List.takeWhile_append_of_pos hds, List.dropWhile_append_of_pos hds, hr'.1, hr'.2]
  exact ⟨List.append_nil ds, rfl⟩

theorem digitsValue_append (a b : JsString) :
    digitsValue (a ++ b) = digitsValue a * 10 ^ b.length + digitsValue b := by
  have hfold (init : Nat) : b.foldl (fun n d => n * 10 + (d.toNat - 0x30)) init =
      init * 10 ^ b.length + digitsValue b := by
    induction b generalizing init with
    | nil => simp [digitsValue]
    | cons d b ih =>
      simp only [digitsValue, List.foldl_cons, List.length_cons] at ih ⊢
      rw [ih, ih (0 * 10 + _), Nat.pow_succ]
      grind
  rw [digitsValue, List.foldl_append]
  exact hfold _

theorem digitsValue_zeros (n : Nat) : digitsValue (List.replicate n (unit '0')) = 0 := by
  induction n with
  | zero => rfl
  | succ n ih =>
    rw [List.replicate_succ', digitsValue_append, ih]
    rfl

/-- The parts of a number in the order they are read. -/
theorem parseMagnitude_of_parts {whole rest frac after r : JsString} {e : Int}
    (hwhole : AreDigits whole)
    (hlead : whole ≠ [] ∧ (whole.head? = some (unit '0') → whole.length = 1))
    (hrest : ∀ c ∈ rest.head?, isDigit c = false) (hfrac : fraction rest = some (frac, after))
    (hexp : exponent after = some (e, r)) :
    parseMagnitude (whole ++ rest) =
      some ((digitsValue (whole ++ frac) : Rat) * pow10 (e - frac.length), r) := by
  obtain ⟨hdigits, hafter⟩ := digits_append hwhole hrest
  unfold parseMagnitude
  rw [hdigits, hafter, if_neg, hfrac]
  · simp only [Option.bind_eq_bind, Option.bind_some, hexp]
    rfl
  · rintro (hnil | ⟨hzero, hlong⟩)
    · exact hlead.1 hnil
    · have := hlead.2 hzero
      omega

theorem fraction_of_ends {r : JsString} (hr : ∀ c ∈ r.head?, c ≠ unit '.') :
    fraction r = some ([], r) := by
  cases r with
  | nil => rfl
  | cons c r => rw [fraction, if_neg (hr c rfl)]

theorem fraction_point {ds r : JsString} (hds : AreDigits ds) (hne : ds ≠ [])
    (hr : ∀ c ∈ r.head?, isDigit c = false) : fraction (unit '.' :: (ds ++ r)) = some (ds, r) := by
  obtain ⟨hdigits, hafter⟩ := digits_append hds hr
  rw [fraction, if_pos rfl, hdigits, hafter, if_neg hne]

theorem exponent_of_ends {r : JsString} (hr : ∀ c ∈ r.head?, c ≠ unit 'e' ∧ c ≠ unit 'E') :
    exponent r = some (0, r) := by
  cases r with
  | nil => rfl
  | cons c r =>
    have hc := hr c rfl
    rw [exponent, if_neg (by simp [hc.1, hc.2])]

/-- The exponent as `placePoint` writes it. -/
theorem exponent_written {k : Int} {r : JsString} (hr : ∀ c ∈ r.head?, isDigit c = false) :
    exponent ((if 0 ≤ k then js "e+" else js "e-") ++ natText k.natAbs ++ r) = some (k, r) := by
  obtain ⟨hdigits, hafter⟩ := digits_append (areDigits_natText k.natAbs) hr
  have hne : natText k.natAbs ≠ [] := by
    have hpos : 0 < (Nat.toDigits 10 k.natAbs).length := Nat.length_toDigits_pos
    rintro hnil
    rw [natText, List.map_eq_nil_iff] at hnil
    rw [hnil] at hpos
    cases hpos
  split
  · show exponent (unit 'e' :: unit '+' :: (natText k.natAbs ++ r)) = some (k, r)
    rw [exponent, if_pos (.inl rfl), sign, if_neg (by decide), if_pos rfl]
    dsimp only
    rw [hdigits, hafter, if_neg hne, digitsValue_natText]
    simp only [Bool.false_eq_true, if_false]
    congr 2
    omega
  · show exponent (unit 'e' :: unit '-' :: (natText k.natAbs ++ r)) = some (k, r)
    rw [exponent, if_pos (.inl rfl), sign, if_pos rfl]
    dsimp only
    rw [hdigits, hafter, if_neg hne, digitsValue_natText]
    simp only [if_true]
    congr 2
    omega

theorem AreDigits.append {a b : JsString} (ha : AreDigits a) (hb : AreDigits b) :
    AreDigits (a ++ b) := fun c hc => (List.mem_append.1 hc).elim (ha c) (hb c)

theorem areDigits_zeros (n : Nat) : AreDigits (List.replicate n (unit '0')) := fun c hc => by
  cases List.eq_of_mem_replicate hc
  rfl

/-- The first digits of a number are not zeros. -/
structure LeadsNumber (ds : JsString) : Prop where
  digits : AreDigits ds
  head : ∃ d rest, ds = d :: rest ∧ d ≠ unit '0'

section
variable {ds r : JsString} {n : Int}

theorem LeadsNumber.length_pos (h : LeadsNumber ds) : 0 < ds.length := by
  obtain ⟨d, rest, rfl, _⟩ := h.head
  exact Nat.succ_pos _

/-- A part in front of the others has the same first digit. -/
theorem LeadsNumber.lead (h : LeadsNumber ds) {whole : JsString} (hne : whole ≠ [])
    (hpart : whole <+: ds ∨ ds <+: whole) :
    whole ≠ [] ∧ (whole.head? = some (unit '0') → whole.length = 1) := by
  refine ⟨hne, fun hzero => ?_⟩
  obtain ⟨d, ds', rfl, hd⟩ := h.head
  obtain ⟨w, whole, rfl⟩ := List.exists_cons_of_ne_nil hne
  cases Option.some.inj hzero
  obtain hfront | hfront := hpart
  · exact (hd (List.cons_prefix_cons.1 hfront).1.symm).elim
  · exact (hd (List.cons_prefix_cons.1 hfront).1).elim

/-- An integer, with zeros behind its digits. -/
theorem parseMagnitude_integer (h : LeadsNumber ds) (hn : ds.length ≤ n) (hr : EndsNumber r) :
    parseMagnitude (ds ++ List.replicate (n - ds.length).toNat (unit '0') ++ r) =
      some ((digitsValue ds : Rat) * pow10 (n - ds.length), r) := by
  have hpos := h.length_pos
  have hz : n - ds.length = ((n - ds.length).toNat : Int) := by omega
  rw [parseMagnitude_of_parts (h.digits.append (areDigits_zeros _))
    (h.lead (by rw [ne_eq, List.append_eq_nil_iff, ← List.length_eq_zero_iff]; omega)
      (.inr (List.prefix_append ds _)))
    (fun c hc => (hr c hc).1) (fraction_of_ends fun c hc => (hr c hc).2.1)
    (exponent_of_ends fun c hc => (hr c hc).2.2), List.append_nil, digitsValue_append,
    digitsValue_zeros, List.length_replicate, hz, JsNumber.pow10_natCast, Int.toNat_natCast]
  congr 2
  simp [pow10]

/-- A point among the digits. -/
theorem parseMagnitude_point (h : LeadsNumber ds) {k : Nat} (hk : 0 < k) (hlt : k < ds.length)
    (hr : EndsNumber r) : parseMagnitude (ds.take k ++ unit '.' :: ds.drop k ++ r) =
      some ((digitsValue ds : Rat) * pow10 (k - ds.length), r) := by
  have hdrop : ds.drop k ≠ [] := by
    rw [ne_eq, List.drop_eq_nil_iff]
    omega
  have htake : ds.take k ≠ [] := by
    rw [ne_eq, List.take_eq_nil_iff, ← List.length_eq_zero_iff]
    omega
  rw [List.append_assoc, List.cons_append, parseMagnitude_of_parts
    (fun c hc => h.digits c (List.mem_of_mem_take hc))
    (h.lead htake (.inl (List.take_prefix k ds))) (fun c hc => by cases hc; rfl)
    (fraction_point (fun c hc => h.digits c (List.mem_of_mem_drop hc)) hdrop
      fun c hc => (hr c hc).1)
    (exponent_of_ends fun c hc => (hr c hc).2.2), List.take_append_drop, List.length_drop]
  congr 4
  omega

/-- Zeros between the point and the digits. -/
theorem parseMagnitude_small (h : LeadsNumber ds) (hn : n ≤ 0) (hr : EndsNumber r) :
    parseMagnitude (js "0." ++ List.replicate (-n).toNat (unit '0') ++ ds ++ r) =
      some ((digitsValue ds : Rat) * pow10 (n - ds.length), r) := by
  have hpos := h.length_pos
  have hne : List.replicate (-n).toNat (unit '0') ++ ds ≠ [] := by
    rw [ne_eq, List.append_eq_nil_iff, ← List.length_eq_zero_iff (l := ds)]
    omega
  have hshape : js "0." ++ List.replicate (-n).toNat (unit '0') ++ ds ++ r =
      [unit '0'] ++ unit '.' :: (List.replicate (-n).toNat (unit '0') ++ ds ++ r) := by
    rw [show js "0." = [unit '0', unit '.'] from rfl]
    simp
  have hzero : AreDigits [unit '0'] := areDigits_zeros 1
  have hvalue : digitsValue [unit '0'] = 0 := rfl
  rw [hshape, parseMagnitude_of_parts hzero ⟨by simp, fun _ => rfl⟩
    (fun c hc => by cases hc; rfl)
    (fraction_point ((areDigits_zeros _).append h.digits) hne fun c hc => (hr c hc).1)
    (exponent_of_ends fun c hc => (hr c hc).2.2), digitsValue_append, digitsValue_append,
    digitsValue_zeros, hvalue, Nat.zero_mul, Nat.zero_mul, Nat.zero_add, Nat.zero_add,
    List.length_append, List.length_replicate]
  congr 4
  omega

theorem mem_head?_exponent {k : Int} {c : UInt16}
    (hc : c ∈ ((if 0 ≤ k then js "e+" else js "e-") ++ natText k.natAbs ++ r).head?) :
    c = unit 'e' := by
  split at hc <;> exact (Option.some.inj hc).symm

/-- One digit and an exponent. -/
theorem parseMagnitude_digit (h : LeadsNumber ds) (hone : ds.length = 1) (hr : EndsNumber r) :
    parseMagnitude
        (ds ++ ((if 0 ≤ n - 1 then js "e+" else js "e-") ++ natText (n - 1).natAbs) ++ r) =
      some ((digitsValue ds : Rat) * pow10 (n - ds.length), r) := by
  have hne : ds ≠ [] := by
    rintro rfl
    cases hone
  rw [List.append_assoc, parseMagnitude_of_parts h.digits (h.lead hne (.inl List.prefix_rfl))
    (fun c hc => by rw [mem_head?_exponent hc]; rfl)
    (fraction_of_ends fun c hc => by rw [mem_head?_exponent hc]; decide)
    (exponent_written fun c hc => (hr c hc).1), List.append_nil, hone]
  congr 4
  simp

/-- A digit, the others behind a point, and an exponent. -/
theorem parseMagnitude_scientific (h : LeadsNumber ds) (hlong : 1 < ds.length) (hr : EndsNumber r) :
    parseMagnitude (ds.take 1 ++ unit '.' :: ds.drop 1 ++
      ((if 0 ≤ n - 1 then js "e+" else js "e-") ++ natText (n - 1).natAbs) ++ r) =
      some ((digitsValue ds : Rat) * pow10 (n - ds.length), r) := by
  have hdrop : ds.drop 1 ≠ [] := by
    rw [ne_eq, List.drop_eq_nil_iff]
    omega
  have htake : ds.take 1 ≠ [] := by
    rw [ne_eq, List.take_eq_nil_iff, ← List.length_eq_zero_iff]
    omega
  rw [List.append_assoc, List.append_assoc, List.cons_append, parseMagnitude_of_parts
    (fun c hc => h.digits c (List.mem_of_mem_take hc))
    (h.lead htake (.inl (List.take_prefix 1 ds))) (fun c hc => by cases hc; rfl)
    (fraction_point (fun c hc => h.digits c (List.mem_of_mem_drop hc)) hdrop
      fun c hc => by rw [mem_head?_exponent hc]; rfl)
    (exponent_written fun c hc => (hr c hc).1), List.take_append_drop, List.length_drop]
  congr 4
  omega

/-- A number is read as its digits say, wherever the point stands. -/
theorem parseMagnitude_placePoint (h : LeadsNumber ds) (hr : EndsNumber r) :
    parseMagnitude (JsNumber.placePoint ds n ++ r) =
      some ((digitsValue ds : Rat) * pow10 (n - ds.length), r) := by
  have hpos := h.length_pos
  unfold JsNumber.placePoint
  dsimp only
  split
  · exact parseMagnitude_integer h (by omega) hr
  · split
    · have hk : n = (n.toNat : Int) := by omega
      rw [parseMagnitude_point h (by omega) (by omega) hr, ← hk]
    · split
      · exact parseMagnitude_small h (by omega) hr
      · split
        · exact parseMagnitude_digit h (by omega) hr
        · exact parseMagnitude_scientific h (by omega) hr

end

/-! ### The text of a number -/

theorem digitsValue_lt {ds : JsString} (h : AreDigits ds) : digitsValue ds < 10 ^ ds.length := by
  induction ds with
  | nil => decide
  | cons d ds ih =>
    obtain ⟨hd, hds⟩ := List.forall_mem_cons.1 h
    have hvalue : digitsValue [d] ≤ 9 := by
      simp only [isDigit, Bool.and_eq_true, decide_eq_true_eq, UInt16.le_iff_toNat_le] at hd
      have : digitsValue [d] = d.toNat - 0x30 := by simp [digitsValue]
      have : (0x39 : UInt16).toNat = 57 := rfl
      omega
    have hcons := digitsValue_append [d] ds
    rw [List.singleton_append] at hcons
    rw [hcons, List.length_cons, Nat.pow_succ]
    have hmul := Nat.mul_le_mul_right (10 ^ ds.length) hvalue
    have := ih hds
    omega

theorem leadsNumber_natText {n : Nat} (hn : 0 < n) : LeadsNumber (natText n) := by
  refine ⟨areDigits_natText n, ?_⟩
  have hpos : 0 < (natText n).length := by
    rw [natText, List.length_map]
    exact Nat.length_toDigits_pos
  obtain ⟨d, rest, hcons⟩ := List.exists_cons_of_length_pos hpos
  refine ⟨d, rest, hcons, ?_⟩
  rintro rfl
  -- with a leading zero the other digits would be too few
  have hlower := (JsNumber.pow10_pred_length_le hn).1
  have hvalue := digitsValue_natText n
  have hdigits := areDigits_natText n
  rw [hcons] at hlower hvalue hdigits
  have hless := digitsValue_lt (List.forall_mem_cons.1 hdigits).2
  have hrest : digitsValue (unit '0' :: rest) = digitsValue rest := rfl
  rw [List.length_cons, Nat.add_sub_cancel] at hlower
  omega

/-- The digits that are left without the zeros at the end. -/
theorem natText_strip {n : Nat} (hn : 0 < n) : ∃ k,
    let kept := ((natText n).reverse.dropWhile (· = unit '0')).reverse
    LeadsNumber kept ∧ (natText n).length = kept.length + k ∧ n = digitsValue kept * 10 ^ k := by
  have hlead := leadsNumber_natText hn
  have hsplit : natText n = ((natText n).reverse.dropWhile (· = unit '0')).reverse ++
      ((natText n).reverse.takeWhile (· = unit '0')).reverse := by
    rw [← List.reverse_append, List.takeWhile_append_dropWhile, List.reverse_reverse]
  have hzeros : ((natText n).reverse.takeWhile (· = unit '0')).reverse =
      List.replicate ((natText n).reverse.takeWhile (· = unit '0')).length (unit '0') := by
    rw [List.eq_replicate_iff, List.length_reverse]
    refine ⟨rfl, fun c hc => ?_⟩
    exact of_decide_eq_true (List.all_eq_true.1 List.all_takeWhile c (List.mem_reverse.1 hc))
  rw [hzeros] at hsplit
  generalize ((natText n).reverse.takeWhile (· = unit '0')).length = k at hsplit
  generalize ((natText n).reverse.dropWhile (· = unit '0')).reverse = kept at hsplit
  refine ⟨k, ⟨fun c hc => ?_, ?_⟩, ?_, ?_⟩
  · refine hlead.digits c ?_
    rw [hsplit]
    exact List.mem_append_left _ hc
  · obtain ⟨d, rest, hcons, hd⟩ := hlead.head
    rw [hsplit] at hcons
    cases kept with
    | nil =>
      cases k with
      | zero => cases hcons
      | succ k =>
        cases hcons
        exact (hd rfl).elim
    | cons c kept =>
      cases hcons
      exact ⟨d, kept, rfl, hd⟩
  · rw [hsplit, List.length_append, List.length_replicate]
  · have hvalue := digitsValue_natText n
    rw [hsplit, digitsValue_append, digitsValue_zeros, List.length_replicate] at hvalue
    exact hvalue.symm

theorem parseMagnitude_positiveText {q : Rat} (hq : 0 < q)
    (hdouble : JsNumber.round q = .finite q) {r : JsString} (hr : EndsNumber r) :
    ∃ v, parseMagnitude (JsNumber.positiveText q ++ r) = some (v, r) ∧
      JsNumber.round v = .finite q := by
  have hreads : JsNumber.round ((JsNumber.shortestDigits q (JsNumber.decimalPoint q) 17 1).1 *
      pow10 (JsNumber.shortestDigits q (JsNumber.decimalPoint q) 17 1).2) = .finite q :=
    JsNumber.round_shortestDigits hq hdouble (by decide) rfl
  unfold JsNumber.positiveText
  generalize JsNumber.shortestDigits q (JsNumber.decimalPoint q) 17 1 = found at hreads
  obtain ⟨s, e⟩ := found
  dsimp only at hreads ⊢
  have hs : 0 < s := by
    refine Nat.pos_of_ne_zero ?_
    rintro rfl
    rw [show ((0 : Nat) : Rat) = 0 from rfl, Rat.zero_mul] at hreads
    cases hreads
    exact absurd hq (by decide)
  obtain ⟨k, hkept, hlen, hvalue⟩ := natText_strip hs
  refine ⟨_, parseMagnitude_placePoint hkept hr, ?_⟩
  have hplace : (s : Rat) * pow10 e =
      (digitsValue ((natText s).reverse.dropWhile (· = unit '0')).reverse : Rat) *
        pow10 ((natText s).length + e -
          (((natText s).reverse.dropWhile (· = unit '0')).reverse.length : Nat)) := by
    have hshift : ((natText s).length : Int) + e -
        (((natText s).reverse.dropWhile (· = unit '0')).reverse.length : Nat) = (k : Int) + e := by
      omega
    rw [hshift, JsNumber.pow10_add, JsNumber.pow10_natCast, ← Rat.mul_assoc]
    congr 1
    rw [← Rat.natCast_mul]
    exact congrArg Nat.cast hvalue
  rw [← hplace]
  exact hreads

theorem head?_of_parseMagnitude {s : JsString} (h : parseMagnitude s ≠ none) :
    s.head? ≠ some (unit '-') := by
  cases s with
  | nil => simp
  | cons c s =>
    rw [List.head?_cons, ne_eq, Option.some.injEq]
    rintro rfl
    refine h ?_
    rw [parseMagnitude, if_pos (.inl rfl)]

/-- The text of a number, with what ends it behind it, is read as the number. -/
theorem parseNumber_toStr {q : Rat} (hdouble : JsNumber.round q = .finite q) {r : JsString}
    (hr : EndsNumber r) : parseNumber ((JsNumber.finite q).toStr ++ r) = some (.finite q, r) := by
  have hpositive {p : Rat} (hp : 0 < p) (hd : JsNumber.round p = .finite p) :=
    parseMagnitude_positiveText hp hd hr
  have htext : (JsNumber.finite q).toStr = if q = 0 then js "0"
      else if q < 0 then unit '-' :: JsNumber.positiveText (-q) else JsNumber.positiveText q := rfl
  rw [parseNumber, htext]
  split
  · rename_i hzero
    subst hzero
    have hread : parseMagnitude (js "0" ++ r) =
        some ((digitsValue (js "0" ++ []) : Rat) * pow10 (0 - ([] : JsString).length), r) :=
      parseMagnitude_of_parts (areDigits_zeros 1) ⟨by decide, fun _ => rfl⟩
        (fun c hc => (hr c hc).1) (fraction_of_ends fun c hc => (hr c hc).2.1)
        (exponent_of_ends fun c hc => (hr c hc).2.2)
    rw [if_neg (head?_of_parseMagnitude (by simp [hread])), hread, Option.map_some]
    rw [show ((digitsValue (js "0" ++ []) : Nat) : Rat) = 0 from rfl, Rat.zero_mul]
    rfl
  · split
    · rw [List.cons_append, List.head?_cons, if_pos rfl, List.drop_one, List.tail_cons]
      have hneg : JsNumber.round (-q) = .finite (-q) := by
        rw [JsNumber.round_neg, hdouble]
        rfl
      obtain ⟨v, hread, hv⟩ := hpositive (p := -q) (by grind) hneg
      rw [hread, Option.map_some]
      dsimp only
      rw [JsNumber.round_neg, hv]
      simp [JsNumber.neg]
    · obtain ⟨v, hread, hv⟩ := hpositive (p := q) (by grind) hdouble
      rw [if_neg (head?_of_parseMagnitude (by simp [hread])), hread, Option.map_some]
      dsimp only
      rw [hv]

/-! ### `Number` of a text -/

/-- A unit that may stand in a decimal literal. -/
def InDecimal (c : UInt16) : Prop := isDigit c = true ∨ c ∈ js ".eE+-"

theorem InDecimal.not_isSpace {c : UInt16} (h : InDecimal c) : isSpace c = false := by
  obtain hdigit | hmem := h
  · simp only [isDigit, Bool.and_eq_true, decide_eq_true_eq, UInt16.le_iff_toNat_le,
      UInt16.reduceToNat] at hdigit
    simp only [isSpace, Bool.or_eq_false_iff, Bool.and_eq_false_iff, decide_eq_false_iff_not,
      UInt16.le_iff_toNat_le, UInt16.reduceToNat, ← UInt16.toNat_inj]
    omega
  · have hall : (js ".eE+-").all (fun c => !isSpace c) = true := by decide
    simpa using List.all_eq_true.1 hall c hmem

/-- The letters of the prefixes and of `Infinity` stand in no decimal literal. -/
theorem InDecimal.ne_letter {c : UInt16} (h : InDecimal c) : c ∉ js "xXoObBI" := by
  intro hletter
  have hall : (js "xXoObBI").all (fun c => isDigit c = false ∧ c ∉ js ".eE+-") = true := by decide
  obtain ⟨hdigit, hmem⟩ := of_decide_eq_true (List.all_eq_true.1 hall c hletter)
  obtain h | h := h
  · rw [hdigit] at h
    cases h
  · exact hmem h

theorem inDecimal_of_digits {s : JsString} (h : ∀ c ∈ afterDigits s, InDecimal c) :
    ∀ c ∈ s, InDecimal c := by
  intro c hc
  rw [← List.takeWhile_append_dropWhile (p := isDigit) (l := s)] at hc
  obtain hwhole | hrest := List.mem_append.1 hc
  · exact .inl (List.all_eq_true.1 List.all_takeWhile c hwhole)
  · exact h c hrest

theorem inDecimal_of_exponent {s : JsString} {e : Int} (h : exponent s = some (e, [])) :
    ∀ c ∈ s, InDecimal c := by
  cases s with
  | nil => simp
  | cons c cs =>
    by_cases he : c = unit 'e' ∨ c = unit 'E'
    · have hc : InDecimal c := by
        obtain rfl | rfl := he
        all_goals exact .inr (by decide)
      rw [exponent, if_pos he] at h
      refine List.forall_mem_cons.2 ⟨hc, ?_⟩
      have hafter : afterDigits (sign cs).2 = [] := by
        dsimp only at h
        split at h
        · cases h
        · exact (Prod.mk.inj (Option.some.inj h)).2
      have hsigned : ∀ c ∈ (sign cs).2, InDecimal c :=
        inDecimal_of_digits (by rw [hafter]; simp)
      cases cs with
      | nil => simp
      | cons c' cs =>
        rw [sign] at hsigned
        split at hsigned
        · subst_vars
          exact List.forall_mem_cons.2 ⟨.inr (by decide), hsigned⟩
        · split at hsigned
          · subst_vars
            exact List.forall_mem_cons.2 ⟨.inr (by decide), hsigned⟩
          · exact hsigned
    · rw [exponent, if_neg he] at h
      cases h

theorem inDecimal_of_fraction {s frac r : JsString} (h : fraction s = some (frac, r))
    (hr : ∀ c ∈ r, InDecimal c) : ∀ c ∈ s, InDecimal c := by
  cases s with
  | nil => simp
  | cons c cs =>
    rw [fraction] at h
    split at h
    · subst_vars
      split at h
      · cases h
      · cases h
        exact List.forall_mem_cons.2 ⟨.inr (by decide), inDecimal_of_digits hr⟩
    · cases h
      exact hr

/-- What a literal that ends its text was read from. -/
theorem parseMagnitude_ends {s : JsString} {v : Rat} (h : parseMagnitude s = some (v, [])) :
    digits s ≠ [] ∧ ∃ frac after e, fraction (afterDigits s) = some (frac, after) ∧
      exponent after = some (e, []) ∧
      v = (digitsValue (digits s ++ frac) : Rat) * pow10 (e - frac.length) := by
  unfold parseMagnitude at h
  dsimp only at h
  split at h
  · cases h
  · rename_i hlead
    obtain ⟨⟨frac, after⟩, hfrac, h⟩ := Option.bind_eq_some_iff.1 h
    obtain ⟨⟨e, r⟩, hexp, h⟩ := Option.bind_eq_some_iff.1 h
    cases h
    exact ⟨fun hnil => hlead (.inl hnil), frac, after, e, hfrac, hexp, rfl⟩

theorem inDecimal_of_parseMagnitude {s : JsString} {v : Rat}
    (h : parseMagnitude s = some (v, [])) : ∀ c ∈ s, InDecimal c := by
  obtain ⟨_, frac, after, e, hfrac, hexp, _⟩ := parseMagnitude_ends h
  exact inDecimal_of_digits (inDecimal_of_fraction hfrac (inDecimal_of_exponent hexp))

/-- A literal of JSON is one of the decimal literals that `Number` reads. -/
theorem decimalValue_of_parseMagnitude {s : JsString} {v : Rat}
    (h : parseMagnitude s = some (v, [])) : decimalValue s = some v := by
  obtain ⟨hwhole, frac, after, e, hfrac, hexp, rfl⟩ := parseMagnitude_ends h
  have hne (P : Prop) : ¬(digits s = [] ∧ P) := fun hnil => hwhole hnil.1
  unfold decimalValue
  dsimp only
  cases hafter : afterDigits s with
  | nil =>
    rw [hafter] at hfrac
    cases hfrac
    dsimp only
    rw [if_neg (hne _), hexp]
  | cons c cs =>
    rw [hafter, fraction] at hfrac
    dsimp only
    split at hfrac
    · rename_i hpoint
      simp only [if_pos hpoint]
      split at hfrac
      · cases hfrac
      · cases hfrac
        rw [if_neg (hne _), hexp]
    · rename_i hpoint
      simp only [if_neg hpoint]
      cases hfrac
      rw [if_neg (hne _), hexp]

theorem trim_of_not_isSpace {s : JsString} (h : ∀ c ∈ s, isSpace c = false) : trim s = s := by
  have hkeep {l : JsString} (hl : ∀ c ∈ l, isSpace c = false) : l.dropWhile isSpace = l := by
    cases l with
    | nil => rfl
    | cons c l => exact List.dropWhile_cons_of_neg (by simp [hl c List.mem_cons_self])
  rw [trim, hkeep h, hkeep fun c hc => h c (List.mem_reverse.1 hc), List.reverse_reverse]

theorem decimalNumber_of_parseMagnitude {s : JsString} {v : Rat} (negative : Bool)
    (h : parseMagnitude s = some (v, [])) :
    decimalNumber negative s = .round (if negative then -v else v) := by
  have hword : s ≠ js "Infinity" := by
    rintro rfl
    exact (inDecimal_of_parseMagnitude h (unit 'I') (by decide)).ne_letter (by decide)
  rw [decimalNumber, if_neg hword, decimalValue_of_parseMagnitude h]

theorem radixPrefix_of_inDecimal {c : UInt16} {cs : JsString} (h : ∀ x ∈ cs, InDecimal x) :
    radixPrefix (c :: cs) = none := by
  cases cs with
  | nil => rfl
  | cons x cs =>
    have hx := (h x List.mem_cons_self).ne_letter
    have hletters : x ≠ unit 'x' ∧ x ≠ unit 'X' ∧ x ≠ unit 'o' ∧ x ≠ unit 'O' ∧ x ≠ unit 'b' ∧
        x ≠ unit 'B' := by
      refine ⟨?_, ?_, ?_, ?_, ?_, ?_⟩
      all_goals
        rintro rfl
        exact hx (by decide)
    simp only [radixPrefix, hletters, or_self, if_false, ite_self]

/-- `Number` of a text that JSON reads as a number. -/
theorem stringToNumber_of_parseNumber {s : JsString} {n : JsNumber}
    (h : parseNumber s = some (n, [])) : stringToNumber s = n := by
  cases s with
  | nil => cases h
  | cons c cs =>
    rw [parseNumber, List.head?_cons] at h
    split at h
    · rename_i hminus
      cases hminus
      obtain ⟨⟨v, r⟩, hread, heq⟩ := Option.map_eq_some_iff.1 h
      cases heq
      have hdecimal : ∀ x ∈ cs, InDecimal x := inDecimal_of_parseMagnitude hread
      have hspace : ∀ x ∈ unit '-' :: cs, isSpace x = false :=
        List.forall_mem_cons.2 ⟨by decide, fun x hx => (hdecimal x hx).not_isSpace⟩
      rw [stringToNumber, trim_of_not_isSpace hspace]
      dsimp only
      rw [radixPrefix_of_inDecimal hdecimal]
      exact decimalNumber_of_parseMagnitude true hread
    · rename_i hminus
      obtain ⟨⟨v, r⟩, hread, heq⟩ := Option.map_eq_some_iff.1 h
      cases heq
      have hdecimal := inDecimal_of_parseMagnitude hread
      obtain ⟨hwhole, _⟩ := parseMagnitude_ends hread
      have hplus : c ≠ unit '+' := by
        rintro rfl
        exact hwhole rfl
      rw [stringToNumber, trim_of_not_isSpace fun x hx => (hdecimal x hx).not_isSpace]
      dsimp only
      rw [radixPrefix_of_inDecimal fun x hx => hdecimal x (List.mem_cons_of_mem c hx)]
      dsimp only
      rw [if_neg fun heq => hminus (congrArg some heq), if_neg hplus]
      exact decimalNumber_of_parseMagnitude false hread

/-- `Number(String(n))` is `n`. -/
theorem stringToNumber_toStr {q : Rat} (hdouble : JsNumber.round q = .finite q) :
    stringToNumber (JsNumber.finite q).toStr = .finite q := by
  have hread := parseNumber_toStr hdouble (r := []) fun _ hc => nomatch hc
  rw [List.append_nil] at hread
  exact stringToNumber_of_parseNumber hread

/-- `Number` of digits, which may start with zeros. -/
theorem stringToNumber_digits {s : JsString} (hs : AreDigits s) (hne : s ≠ []) :
    stringToNumber s = .round (digitsValue s : Nat) := by
  obtain ⟨hdigits, hafter⟩ := digits_append (r := []) hs fun _ hc => nomatch hc
  rw [List.append_nil] at hdigits hafter
  have hdecimal : decimalValue s = some (digitsValue s : Nat) := by
    unfold decimalValue
    rw [hdigits, hafter]
    dsimp only
    rw [if_neg fun hnil => hne hnil.1, List.append_nil]
    exact congrArg some (Rat.mul_one _)
  cases s with
  | nil => contradiction
  | cons c cs =>
    have hin : ∀ x ∈ c :: cs, InDecimal x := fun x hx => .inl (hs x hx)
    have hc : c ≠ unit '-' ∧ c ≠ unit '+' ∧ c ≠ unit 'I' := by
      refine ⟨?_, ?_, ?_⟩
      all_goals
        rintro rfl
        exact absurd (hs _ List.mem_cons_self) (by decide)
    rw [stringToNumber, trim_of_not_isSpace fun x hx => (hin x hx).not_isSpace]
    dsimp only
    rw [radixPrefix_of_inDecimal fun x hx => hin x (List.mem_cons_of_mem c hx)]
    dsimp only
    rw [if_neg hc.1, if_neg hc.2.1, decimalNumber, if_neg, hdecimal]
    · rfl
    · rintro heq
      exact hc.2.2 (List.cons.inj heq).1

end JsonParser

namespace JsNumber
open JsonParser

/-! ### Whole numbers -/

/-- A number that is a double, as every finite one is at run time. -/
def IsDouble (n : JsNumber) : Prop := ∃ q, n = .finite q ∧ round q = .finite q

theorem IsDouble.stringToNumber_toStr {n : JsNumber} (h : n.IsDouble) :
    stringToNumber n.toStr = n := by
  obtain ⟨q, rfl, hdouble⟩ := h
  exact JsonParser.stringToNumber_toStr hdouble

/-- `Number.isSafeInteger` on a number. -/
def isSafeInteger : JsNumber → Bool
  | .finite q => q.den = 1 ∧ -9007199254740992 < q ∧ q < 9007199254740992
  | _ => false

theorem le_roundHalfEven {q : Rat} {k : Int} (h : (k : Rat) ≤ q) : k ≤ roundHalfEven q := by
  have hfloor : k ≤ q.floor := by
    have hmono := Rat.floor_monotone h
    rwa [Rat.floor_intCast] at hmono
  unfold roundHalfEven
  grind

theorem pow2_fiftyThree : pow2 53 = 9007199254740992 := by decide +kernel

/-- A whole number of 53 bits is a double. -/
theorem round_natCast {n : Nat} (hn : n < 9007199254740992) : round n = .finite n := by
  by_cases hzero : n = 0
  · rw [hzero]
    rfl
  have hpos : (0 : Rat) < n := Rat.natCast_pos.2 (by omega)
  have hlt : (n : Rat) < pow2 53 := by
    rw [pow2_fiftyThree]
    exact_mod_cast hn
  have hbit := (leadingBit_rat hpos).1
  have hulp : ∃ m : Nat, (1 : Rat) = m * ulp n := by
    have hle : leadingBit (n : Rat).num.natAbs (n : Rat).den ≤ 52 := by
      refine Int.not_lt.1 fun hgt => ?_
      have := pow2_le (j := 53) (k := leadingBit (n : Rat).num.natAbs (n : Rat).den) (by omega)
      grind
    obtain ⟨m, _, hm⟩ := pow2_multiple (j := max (leadingBit (n : Rat).num.natAbs
      (n : Rat).den - 52) (-1074)) (k := 0) (by omega)
    exact ⟨m, hm⟩
  obtain ⟨m, hm⟩ := hulp
  have hdiv : (n : Rat) / ulp n = ((n * m : Nat) : Int) := by
    have := ulp_pos (n : Rat)
    push_cast
    grind
  have hround : roundHalfEven ((n : Rat) / ulp n) = (n * m : Nat) := by
    rw [hdiv]
    exact roundHalfEven_near (by grind) (by grind)
  have hback : ((n * m : Nat) : Int) * ulp n = (n : Rat) := by
    push_cast
    grind
  have hbig := pow2_le (j := 53) (k := 1024) (by omega)
  rw [round_eq n (by grind), hround]
  dsimp only
  rw [hback, if_neg (by grind), if_neg (by grind)]

/-- A whole number past 53 bits is not rounded to one of 53 bits. -/
theorem le_round {n : Nat} (hn : 9007199254740992 ≤ n) {r : Rat} (hr : round n = .finite r) :
    9007199254740992 ≤ r := by
  have hle : pow2 53 ≤ (n : Rat) := by
    rw [pow2_fiftyThree]
    exact_mod_cast hn
  have hpos : (0 : Rat) < n := Rat.natCast_pos.2 (by omega)
  obtain ⟨hlower, hupper⟩ := leadingBit_rat hpos
  have hbit : 53 ≤ leadingBit (n : Rat).num.natAbs (n : Rat).den := by
    refine Int.not_lt.1 fun hlt => ?_
    have := pow2_le (j := leadingBit (n : Rat).num.natAbs (n : Rat).den + 1) (k := 53) (by omega)
    grind
  have hulp : ulp n = pow2 (leadingBit (n : Rat).num.natAbs (n : Rat).den - 52) := by
    rw [ulp]
    congr 1
    omega
  have hsplit : pow2 (leadingBit (n : Rat).num.natAbs (n : Rat).den) = (4503599627370496 : Int) *
      ulp n := by
    have hfiftyTwo : pow2 52 = (4503599627370496 : Int) := by decide +kernel
    rw [hulp, ← hfiftyTwo, ← pow2_add]
    congr 1
    omega
  have hmantissa : (4503599627370496 : Int) ≤ roundHalfEven ((n : Rat) / ulp n) := by
    apply le_roundHalfEven
    rw [← Rat.not_lt, Rat.div_lt_iff (ulp_pos n), Rat.not_lt, ← hsplit]
    exact hlower
  have hmul := Rat.mul_le_mul_of_nonneg_right (Rat.intCast_le_intCast.2 hmantissa)
    (Rat.le_of_lt (ulp_pos (n : Rat)))
  have hpow := pow2_le hbit
  rw [pow2_fiftyThree] at hpow
  rw [round_eq n (by grind)] at hr
  grind

/-- A whole number that rounds to a positive safe integer is that integer. -/
theorem safe_round_iff {n : Nat} : ((round n).isSafeInteger = true ∧ lt 0 (round n) = true) ↔
    0 < n ∧ n < 9007199254740992 := by
  by_cases hn : n < 9007199254740992
  · have hsafe : (JsNumber.finite n).isSafeInteger = true := by
      have hlt : (n : Rat) < 9007199254740992 := by exact_mod_cast hn
      have hnonneg : (0 : Rat) ≤ n := Rat.natCast_nonneg
      simp only [isSafeInteger, decide_eq_true_eq]
      exact ⟨rfl, by grind, hlt⟩
    have hzero : (0 : JsNumber) = .finite 0 := rfl
    rw [round_natCast hn, hsafe, hzero]
    simp only [lt, le, hn, and_true, true_and, Bool.not_eq_true', decide_eq_false_iff_not,
      Rat.not_le, Rat.natCast_pos]
  · refine ⟨fun h => ?_, fun h => absurd h.2 hn⟩
    obtain ⟨hsafe, _⟩ := h
    cases hr : round n with
    | nan =>
      rw [hr] at hsafe
      cases hsafe
    | infinite negative =>
      rw [hr] at hsafe
      cases hsafe
    | finite r =>
      rw [hr] at hsafe
      simp only [isSafeInteger, decide_eq_true_eq] at hsafe
      have := le_round (by omega) hr
      grind

theorem pow10_le {j k : Int} (h : j ≤ k) : pow10 j ≤ pow10 k := by
  obtain ⟨m, rfl⟩ := Int.le.dest h
  have hone : (1 : Rat) ≤ pow10 m := by
    rw [pow10_natCast]
    exact_mod_cast Nat.pow_pos (n := m) (show 0 < 10 by decide)
  have hmul := Rat.mul_le_mul_of_nonneg_left hone (Rat.le_of_lt (pow10_pos j))
  rw [pow10_add]
  grind

theorem decimalCandidates_le {q : Rat} (hq : 0 ≤ q) {e : Int} {s : Nat}
    (hs : s ∈ decimalCandidates q e) : (s : Rat) * pow10 e ≤ q + pow10 e := by
  have hpos := pow10_pos e
  have hfloor := Rat.floor_le (q / pow10 e)
  have hnonneg : 0 ≤ (q / pow10 e).floor := by
    refine Rat.le_floor_iff.2 ?_
    rw [← Rat.not_lt, Rat.div_lt_iff hpos]
    grind
  have hle : s ≤ (q / pow10 e).floor.toNat + 1 := by
    unfold decimalCandidates at hs
    dsimp only at hs
    split at hs
    all_goals
      simp only [List.mem_cons, List.not_mem_nil, or_false] at hs
      omega
  have hcast : (s : Rat) ≤ (q / pow10 e).floor + 1 := by
    have h : (s : Int) ≤ (q / pow10 e).floor + 1 := by omega
    exact_mod_cast h
  have hmul := Rat.mul_le_mul_of_nonneg_right hcast (Rat.le_of_lt hpos)
  have hback : q / pow10 e * pow10 e = q := Rat.div_mul_cancel (by grind)
  have hbelow := Rat.mul_le_mul_of_nonneg_right hfloor (Rat.le_of_lt hpos)
  rw [hback] at hbelow
  grind

/-- The search for the digits of a whole number ends before the point. -/
theorem shortestDigits_natCast {n : Nat} (hn : n < 9007199254740992) {place : Int} {tries k : Nat}
    (hk : k ≤ place) (htries : place - k < tries) :
    0 ≤ (shortestDigits n place tries k).2 ∧ (shortestDigits n place tries k).2 ≤ place - k ∧
      ((shortestDigits n place tries k).1 : Rat) * pow10 (shortestDigits n place tries k).2 ≤
        n + pow10 (shortestDigits n place tries k).2 := by
  induction tries generalizing k with
  | zero => omega
  | succ tries ih =>
    rw [shortestDigits]
    split
    · rename_i s hs
      exact ⟨by omega, by omega,
        decimalCandidates_le Rat.natCast_nonneg (List.mem_of_find?_eq_some hs)⟩
    · rename_i hnone
      by_cases hlast : place = k
      · -- the number itself is a candidate
        have hone : pow10 0 = 1 := rfl
        have hmem : n ∈ decimalCandidates n (place - k) := by
          have hdiv : (n : Rat) / 1 = (n : Int) := by
            rw [Rat.intCast_natCast]
            grind
          have hbelow : ((n : Rat) / 1).floor.toNat = n := by
            rw [hdiv, Rat.floor_intCast, Int.toNat_natCast]
          have hrest : (n : Rat) / 1 - n < 1 / 2 := by grind
          rw [hlast, Int.sub_self]
          simp only [decimalCandidates, hone, hbelow]
          rw [if_pos (.inl hrest)]
          exact List.mem_cons_self
        have hno := List.find?_eq_none.1 hnone n hmem
        rw [hlast, Int.sub_self, hone, Rat.mul_one, round_natCast hn] at hno
        simp at hno
      · obtain ⟨hlow, hhigh, hsum⟩ := ih (k := k + 1) (by omega) (by omega)
        exact ⟨hlow, by omega, hsum⟩

/-- The text of a positive whole number of 53 bits is digits. -/
theorem areDigits_toStr {n : Nat} (hpos : 0 < n) (hn : n < 9007199254740992) :
    AreDigits (JsNumber.finite n).toStr ∧ (JsNumber.finite n).toStr ≠ [] := by
  have hq : (0 : Rat) < n := Rat.natCast_pos.2 hpos
  have hdouble := round_natCast hn
  obtain ⟨hlower, hupper⟩ := decimalPoint_spec (pow2_le_double hq hdouble)
  have hfifteen : decimalPoint n - 1 ≤ 15 := by
    refine Int.not_lt.1 fun hgt => ?_
    have := pow10_le (j := 16) (k := decimalPoint n - 1) (by omega)
    have hsixteen : pow10 16 = (10000000000000000 : Nat) := by decide +kernel
    have hlt : (n : Rat) < (10000000000000000 : Nat) := Rat.natCast_lt_natCast.2 (by omega)
    grind
  have hone : 1 ≤ decimalPoint n := by
    refine Int.not_lt.1 fun hlt => ?_
    have := pow10_le (j := decimalPoint n) (k := 0) (by omega)
    have hzero : pow10 0 = (1 : Nat) := rfl
    have hle : ((1 : Nat) : Rat) ≤ n := Rat.natCast_le_natCast.2 hpos
    grind
  obtain ⟨hnonneg, hplace, hsum⟩ :=
    @shortestDigits_natCast n hn (decimalPoint n) 17 1 (by omega) (by omega)
  have hreads := @round_shortestDigits n hq hdouble 17 1 (by decide) rfl
  have htext : (JsNumber.finite n).toStr = positiveText n := by
    rw [toStr, if_neg (by grind), if_neg (by grind)]
  rw [htext, positiveText]
  generalize shortestDigits n (decimalPoint n) 17 1 = found at *
  obtain ⟨s, e⟩ := found
  dsimp only at *
  have hs : 0 < s := by
    refine Nat.pos_of_ne_zero ?_
    rintro rfl
    rw [show ((0 : Nat) : Rat) = 0 from rfl, Rat.zero_mul] at hreads
    cases hreads
    exact absurd hq (by decide)
  have hlength : ((natText s).length : Int) + e ≤ 17 := by
    have hten := pow10_le (j := e) (k := decimalPoint n - 1) (by omega)
    have hdigits : pow10 (((natText s).length - 1 : Nat) : Int) ≤ s := by
      rw [pow10_natCast]
      exact Rat.natCast_le_natCast.2 (pow10_pred_length_le hs).1
    have hmul := Rat.mul_le_mul_of_nonneg_right hdigits (Rat.le_of_lt (pow10_pos e))
    rw [← pow10_add] at hmul
    refine Int.not_lt.1 fun hgt => ?_
    have := pow10_le (j := 17) (k := (((natText s).length - 1 : Nat) : Int) + e) (by omega)
    have hseventeen : pow10 17 = (100000000000000000 : Nat) := by decide +kernel
    have hlt : (n : Rat) < (10000000000000000 : Nat) := Rat.natCast_lt_natCast.2 (by omega)
    grind
  obtain ⟨k, hkept, hlen, _⟩ := natText_strip hs
  have hfits : ((((natText s).reverse.dropWhile (· = unit '0')).reverse.length : Nat) : Int) ≤
      (natText s).length + e ∧ ((natText s).length : Int) + e ≤ 21 := by
    omega
  rw [placePoint, if_pos hfits]
  refine ⟨hkept.digits.append (areDigits_zeros _), fun hnil => ?_⟩
  have := hkept.length_pos
  rw [(List.append_eq_nil_iff.1 hnil).1] at this
  exact absurd this (by decide)

/-! ### Whole numbers at the front of a text -/

/-- `Number.parseInt(s, 10)`. -/
def parseInt (s : JsString) : JsNumber :=
  let (negative, s) := sign (s.dropWhile isSpace)
  if digits s = [] then .nan
  else round (if negative then -(digitsValue (digits s) : Rat) else digitsValue (digits s))

theorem not_isSpace_of_isDigit {c : UInt16} (h : isDigit c = true) : isSpace c = false :=
  InDecimal.not_isSpace (.inl h)

/-- What is written of a whole number is read back, with white space around it. -/
theorem parseInt_natText {n : Nat} (hn : n < 9007199254740992) :
    parseInt (trim (natText n)) = .finite n := by
  have hdigits := areDigits_natText n
  have hspace : ∀ c ∈ natText n, isSpace c = false := fun c hc =>
    not_isSpace_of_isDigit (hdigits c hc)
  rw [trim_of_not_isSpace hspace]
  obtain ⟨hall, _⟩ := digits_append (r := []) hdigits (by simp)
  rw [List.append_nil] at hall
  cases htext : natText n with
  | nil =>
    have hlen := Nat.length_toDigits_pos (b := 10) (n := n)
    rw [natText, List.map_eq_nil_iff] at htext
    rw [htext] at hlen
    cases hlen
  | cons c cs =>
    rw [htext] at hdigits hspace hall
    have hdrop : (c :: cs).dropWhile isSpace = c :: cs :=
      List.dropWhile_cons_of_neg (by simp [hspace c List.mem_cons_self])
    have hsign : sign (c :: cs) = (false, c :: cs) := by
      have hc := hdigits c List.mem_cons_self
      have hminus : c ≠ unit '-' := by
        rintro rfl
        exact absurd hc (by decide)
      have hplus : c ≠ unit '+' := by
        rintro rfl
        exact absurd hc (by decide)
      rw [sign, if_neg hminus, if_neg hplus]
    rw [parseInt, hdrop, hsign]
    dsimp only
    rw [hall, if_neg (List.cons_ne_nil c cs), ← htext, digitsValue_natText]
    exact round_natCast hn

end JsNumber

end TheokitGateways.Js
