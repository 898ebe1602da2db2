import EventLog.Decimal.Binary64
import EventLog.Text.Numeral

/-!
# EventLog.Decimal.Fixed

A double with a fixed number of decimal places.  The exact binary value is
rounded, and a value halfway between two decimals goes to the even one.
-/

namespace EventLog.Decimal

/-- The whole number next to a fraction; a half goes to the even neighbour. -/
def roundHalfEven (numerator denominator : Nat) : Nat :=
  let below := numerator / denominator
  let rest := numerator % denominator
  if 2 * rest < denominator then below
  else if denominator < 2 * rest then below + 1
  else if below % 2 = 0 then below else below + 1

def fixed (places : Nat) (x : Float) : String :=
  let signed (negative : Bool) (text : List Char) : String :=
    String.ofList (if negative then '-' :: text else text)
  match Binary64.ofFloat x with
  | .notANumber => "NaN"
  | .infinite negative => signed negative ['i', 'n', 'f']
  | .finite negative m q =>
    let (numerator, denominator) := fraction m 2 q
    let units := roundHalfEven (numerator * Nat.pow 10 places) denominator
    let all := Text.padded (places + 1) units
    let whole := all.take (all.length - places)
    signed negative (if places = 0 then whole else whole ++ '.' :: all.drop (all.length - places))

end EventLog.Decimal
