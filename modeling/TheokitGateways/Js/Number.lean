/-!
# Numbers as IEEE 754 doubles

A JavaScript number is a binary64 value. `JsNumber` holds the real value of a
finite one as a rational; every operation computes exactly and then rounds to
the nearest double, ties to even, overflowing to an infinity. The sign of zero
is not recorded: nothing modelled here observes it.
-/

namespace TheokitGateways.Js

inductive JsNumber where
  | nan
  | infinite (negative : Bool)
  | finite (value : Rat)
  deriving DecidableEq

namespace JsNumber

def pow2 (k : Int) : Rat :=
  if 0 ≤ k then Nat.pow 2 k.toNat else 1 / Nat.pow 2 (-k).toNat

/-- The nearest integer, ties to even. -/
def roundHalfEven (q : Rat) : Int :=
  let below := q.floor
  let rest := q - below
  if rest < 1 / 2 then below
  else if 1 / 2 < rest then below + 1
  else if below % 2 = 0 then below else below + 1

/-- The exponent of the leading bit of `n / d`. -/
def leadingBit (n d : Nat) : Int :=
  let guess := (Nat.log2 n : Int) - Nat.log2 d
  if pow2 guess ≤ (n : Rat) / d then guess else guess - 1

/-- The double nearest to a rational. -/
def round (q : Rat) : JsNumber :=
  if q = 0 then .finite 0
  else
    let ulp := pow2 (max (leadingBit q.num.natAbs q.den - 52) (-1074))
    let r := roundHalfEven (q / ulp) * ulp
    if pow2 1024 ≤ r then .infinite false
    else if r ≤ -pow2 1024 then .infinite true
    else .finite r

def ofInt (n : Int) : JsNumber := round n

/-- `Number.isFinite` on a number. -/
def isFinite : JsNumber → Bool
  | .finite _ => true
  | _ => false

def isNegative : JsNumber → Bool
  | .infinite negative => negative
  | .finite q => q < 0
  | .nan => false

def add : JsNumber → JsNumber → JsNumber
  | .finite a, .finite b => round (a + b)
  | .infinite s, .infinite t => if s = t then .infinite s else .nan
  | .infinite s, .finite _ | .finite _, .infinite s => .infinite s
  | .nan, _ | _, .nan => .nan

def neg : JsNumber → JsNumber
  | .finite q => .finite (-q)
  | .infinite negative => .infinite !negative
  | .nan => .nan

def sub (x y : JsNumber) : JsNumber := x.add y.neg

def mul : JsNumber → JsNumber → JsNumber
  | .finite a, .finite b => round (a * b)
  | .nan, _ | _, .nan => .nan
  | x, y =>
    if x = .finite 0 ∨ y = .finite 0 then .nan else .infinite (x.isNegative != y.isNegative)

/-- `x <= y`, false when either side is not a number. -/
def le : JsNumber → JsNumber → Bool
  | .finite a, .finite b => a ≤ b
  | .nan, _ | _, .nan => false
  | .infinite s, .infinite t => s || !t
  | .infinite s, .finite _ => s
  | .finite _, .infinite t => !t

/-- `x < y`, false when either side is not a number. -/
def lt : JsNumber → JsNumber → Bool
  | .nan, _ | _, .nan => false
  | x, y => !le y x

/-- `Math.floor`. -/
def floor : JsNumber → JsNumber
  | .finite q => .finite q.floor
  | x => x

instance : OfNat JsNumber n := ⟨ofInt n⟩
instance : Add JsNumber := ⟨add⟩
instance : Sub JsNumber := ⟨sub⟩
instance : Mul JsNumber := ⟨mul⟩

example : (1700000000 : JsNumber) * 1000 = .finite 1700000000000 := by decide +kernel
example : (round (10 ^ 308) * 1000).isFinite = false := by decide +kernel

end JsNumber

end TheokitGateways.Js
