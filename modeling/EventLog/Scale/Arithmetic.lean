/-!
# EventLog.Scale.Arithmetic

The numbers that scaling calculates with.  A program that runs calculates with
doubles; the same formulas over the rationals say what they stand for when
nothing is rounded.
-/

namespace EventLog

/-- A number system for scaling: the four operations, powers of ten, and ways
back to whole numbers. -/
class ScaleArithmetic (α : Type) extends Add α, Sub α, Mul α, Div α where
  /-- A whole number of the system. -/
  ofInt : Int → α
  /-- A power of ten, with a negative exponent too. -/
  pow10 : Int → α
  /-- The margin that keeps a value just below a whole number from losing a step: `10 ^ -9`. -/
  margin : α
  /-- Whether a number is neither infinite nor undefined. -/
  isFinite : α → Bool
  /-- Whether the first number is the smaller one. -/
  isLess : α → α → Bool
  /-- The greatest whole number not above a value, if it lies in a range. -/
  floorWithin : Int → Int → α → Option Int
  /-- The least whole number not below a value, if it lies in a range. -/
  ceilWithin : Int → Int → α → Option Int
  /-- The nearest whole number, a half away from zero, moved into the range from 0 to a limit. -/
  roundClamped : Nat → α → Nat

namespace ScaleArithmetic

/-- Doubles, every operation rounded. -/
instance : ScaleArithmetic Float where
  ofInt := Float.ofInt
  pow10 exponent := Float.pow 10.0 (Float.ofInt exponent)
  margin := 1e-9
  isFinite := Float.isFinite
  isLess a b := a < b
  floorWithin low high x :=
    let y := x.floor
    if y < Float.ofInt low || Float.ofInt high < y then none else some y.toInt64.toInt
  ceilWithin low high x :=
    let y := x.ceil
    if Float.ofInt low ≤ y && y ≤ Float.ofInt high then some y.toInt64.toInt else none
  roundClamped limit x :=
    let y := x.round
    if Float.ofNat limit ≤ y then limit else y.toUInt64.toNat

/-- The nearest whole number, a half away from zero. -/
def roundAway (x : Rat) : Int :=
  if 0 ≤ x then (x + 1 / 2).floor else -((-x + 1 / 2).floor)

/-- A whole number, if it lies in a range. -/
def within? (low high n : Int) : Option Int :=
  if low ≤ n ∧ n ≤ high then some n else none

/-- Rational numbers, nothing rounded. -/
instance : ScaleArithmetic Rat where
  ofInt n := n
  pow10 exponent := (10 : Rat) ^ exponent
  margin := 1 / 1000000000
  isFinite _ := true
  isLess a b := a < b
  floorWithin low high x := within? low high x.floor
  ceilWithin low high x := within? low high x.ceil
  roundClamped limit x := min limit (roundAway x).toNat

end ScaleArithmetic

end EventLog
