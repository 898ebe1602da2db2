import EventLog.Json.Basic
import EventLog.Decimal.Shortest

/-!
# EventLog.Json.Number

What a written number stands for.  A number without point and exponent is a
whole number if sixty-four bits hold it, signed or not; negative zero is no
whole number.  As a double a number is made of at most as many digits as an
unsigned word of sixty-four bits holds, multiplied or divided by one power of
ten; a number above all doubles is refused.
-/

namespace EventLog.JsonNumber

/-- Whether the number is written without point and exponent. -/
def isPlain (n : JsonNumber) : Bool := n.fraction.isEmpty && n.exponent.isEmpty

/-- The digits' value, as far as a word of sixty-four bits holds it, and the digits left over. -/
def accumulate (value : Nat) : List Char → Nat × List Char
  | [] => (value, [])
  | c :: rest =>
    let next := value * 10 + (c.toNat - '0'.toNat)
    if next < Text.wordLimit then accumulate next rest else (value, c :: rest)

/-- The whole number that is written, if it is one. -/
def toInt? (n : JsonNumber) : Option Int :=
  if n.isPlain then
    match accumulate 0 n.whole with
    | (value, []) =>
      if n.negative then
        if value ≠ 0 ∧ value ≤ Text.signedLimit then some (-(value : Int)) else none
      else some (value : Int)
    | _ => none
  else none

/-- A power of ten as a double, correctly rounded. -/
def power (exponent : Nat) : Float := Float.ofScientific 1 false exponent

/-- The highest power of ten that is a double. -/
def highestPower : Nat := 308

/-- Divides by a power of ten, in steps that doubles can hold. -/
def dividedBy : Nat → Float → Nat → Float
  | 0, _, _ => 0.0
  | fuel + 1, x, exponent =>
    if exponent ≤ highestPower then x / power exponent
    else if x == 0.0 then x
    else dividedBy fuel (x / power highestPower) (exponent - highestPower)

/-- `significand · 10 ^ exponent` as a double, unless it is too large. -/
def scaled? (significand : Nat) : Int → Option Float
  | .ofNat e =>
    let x := Float.ofNat significand
    if e ≤ highestPower then
      let y := x * power e
      if y.isInf then none else some y
    else if x == 0.0 then some x else none
  | .negSucc e => some (dividedBy 4 (Float.ofNat significand) (e + 1))

/-- The value of an exponent's text, with a sign or without. -/
def exponentValue : List Char → Int
  | '-' :: digits => -(((Text.number? 10 digits).getD 0 : Nat) : Int)
  | '+' :: digits => (((Text.number? 10 digits).getD 0 : Nat) : Int)
  | digits => (((Text.number? 10 digits).getD 0 : Nat) : Int)

/-- The number as a double, unless it is too large. -/
def toFloat? (n : JsonNumber) : Option Float :=
  let (front, dropped) := accumulate 0 n.whole
  let (significand, rest) := accumulate front n.fraction
  let places : Int := (n.fraction.length - rest.length : Nat)
  let magnitude := scaled? significand ((dropped.length : Int) - places + exponentValue n.exponent)
  magnitude.map fun x => if n.negative then -x else x

/-- Whether the number is a whole number or a double. -/
def isInRange (n : JsonNumber) : Bool := n.toInt?.isSome || n.toFloat?.isSome

/-- Doubles from `10 ^ -5` up to `10 ^ 16` are written without an exponent. -/
def positionalFrom : Int := -5

/-- The end of the range of doubles that are written without an exponent. -/
def positionalBelow : Int := 16

/-- The fewest digits of a double: with a point always, unless an exponent
follows a single digit; the exponent carries a sign. -/
def ofFloat (x : Float) : JsonNumber :=
  match Decimal.Binary64.ofFloat x with
  | .notANumber | .infinite _ => ⟨false, ['0'], [], []⟩
  | .finite negative m q =>
    let d := Decimal.shortest .even m q
    let digits := Nat.toDigits 10 d.digits
    let leading : Int := (digits.length : Int) - 1 + d.exponent
    if m = 0 then ⟨negative, ['0'], ['0'], []⟩
    else if positionalFrom ≤ leading ∧ leading < positionalBelow then
      if 0 ≤ d.exponent then
        ⟨negative, digits ++ List.replicate d.exponent.toNat '0', ['0'], []⟩
      else
        let places := (-d.exponent).toNat
        let all := Text.zeroPadded (places + 1) digits
        ⟨negative, all.take (all.length - places), all.drop (all.length - places), []⟩
    else
      let sign := if leading < 0 then '-' else '+'
      ⟨negative, digits.take 1, digits.drop 1, sign :: Nat.toDigits 10 leading.natAbs⟩

end EventLog.JsonNumber
