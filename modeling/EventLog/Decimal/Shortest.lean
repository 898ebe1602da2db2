import EventLog.Decimal.Binary64
import EventLog.Text.Numeral

/-!
# EventLog.Decimal.Shortest

The decimal with the fewest digits that is closer to a double than to any
other double.  A double stands for all reals that round to it, an interval
whose ends belong to it when its significand is even.  For one digit, two
digits and so on, the two decimals next to the value are tried; of two that
lie in the interval the nearer one is taken, and `Tie` settles a draw.
-/

namespace EventLog.Decimal

/-- `digits · 10 ^ exponent`. -/
structure Scientific where
  digits : Nat
  exponent : Int
  deriving DecidableEq, Repr

/-- Which of two equally near decimals is taken. -/
inductive Tie where
  | up
  | even
  deriving DecidableEq, Repr

/-- The least `k` with `numerator / denominator < 10 ^ k`, for a positive fraction. -/
def magnitude (numerator denominator : Nat) : Int :=
  if denominator ≤ numerator then (Nat.toDigits 10 (numerator / denominator)).length
  else
    let places := (Nat.toDigits 10 (denominator / numerator)).length
    if numerator * Nat.pow 10 (places - 1) < denominator then 1 - places else 2 - places

/-- The decimal with the given lowest place next to a value, if it rounds to the value's double. -/
def onGrid? (tie : Tie) (significand : Nat) (lowerHalved : Bool) (numerator denominator : Nat)
    (place : Int) : Option Nat :=
  let (a, b) := match place with
    | .ofNat e => (numerator, denominator * Nat.pow 10 e)
    | .negSucc e => (numerator * Nat.pow 10 (e + 1), denominator)
  let below := a / b
  let above := below + 1
  let gapBelow := a - below * b
  let gapAbove := above * b - a
  let within (gap limit : Nat) : Bool := gap < limit || (gap == limit && significand % 2 == 0)
  let belowFits := within (gapBelow * (if lowerHalved then 4 else 2) * significand) a
  let aboveFits := within (gapAbove * 2 * significand) a
  let preferBelow : Bool :=
    gapBelow < gapAbove || (gapBelow == gapAbove && tie == .even && below % 2 == 0)
  if gapBelow = 0 then some below
  else match belowFits, aboveFits with
    | true, true => some (if preferBelow then below else above)
    | true, false => some below
    | false, true => some above
    | false, false => none

/-- A number's digits without the zeros at their end, which move into the exponent. -/
def Scientific.trim : Nat → Scientific → Scientific
  | 0, d => d
  | fuel + 1, d =>
    if d.digits ≠ 0 ∧ d.digits % 10 = 0 then trim fuel ⟨d.digits / 10, d.exponent + 1⟩ else d

/-- The shortest decimal of `significand · 2 ^ exponent`. -/
def shortest (tie : Tie) (significand : Nat) (exponent : Int) : Scientific :=
  if significand = 0 then ⟨0, 0⟩
  else
    let (numerator, denominator) := fraction significand 2 exponent
    let top := magnitude numerator denominator
    let halved := isAtBinade significand exponent
    let found := (List.range 17).findSome? fun (extra : Nat) =>
      let place : Int := top - 1 - (extra : Int)
      (onGrid? tie significand halved numerator denominator place).map (Scientific.mk · place)
    match found with
    | some d => d.trim 400
    | none => ⟨0, 0⟩

/-- Digits written out without an exponent. -/
def Scientific.positional (d : Scientific) : List Char :=
  let digits := Nat.toDigits 10 d.digits
  match d.exponent with
  | .ofNat e => if d.digits = 0 then digits else digits ++ List.replicate e '0'
  | .negSucc e =>
    let places := e + 1
    let all := Text.zeroPadded (places + 1) digits
    all.take (all.length - places) ++ '.' :: all.drop (all.length - places)

/-- A double in its fewest digits, never with an exponent and without a
fraction if it is whole; of two equally near decimals the larger is taken. -/
def plain (x : Float) : String :=
  let signed (negative : Bool) (text : List Char) : String :=
    String.ofList (if negative then '-' :: text else text)
  match Binary64.ofFloat x with
  | .notANumber => "NaN"
  | .infinite negative => signed negative ['i', 'n', 'f']
  | .finite negative m q => signed negative (shortest .up m q).positional

end EventLog.Decimal
