import EventLog.Text.Numeral

/-!
# EventLog.Decimal.Binary64

What a double stands for: a sign and a whole multiple of a power of two, an
infinity, or no number.
-/

namespace EventLog.Decimal

/-- The meaning of a double.  A finite one is `significand · 2 ^ exponent`. -/
inductive Binary64 where
  | finite (negative : Bool) (significand : Nat) (exponent : Int)
  | infinite (negative : Bool)
  | notANumber
  deriving DecidableEq, Repr

namespace Binary64

/-- The highest bit of a significand, which is not stored but for the smallest
doubles; fifty-two bits follow it. -/
def hiddenBit : Nat := 0x10000000000000

/-- The exponent of the smallest doubles. -/
def lowestExponent : Int := -1074

/-- The meaning of sixty-four bits: sign, eleven bits of exponent, fraction. -/
def ofBits (bits : UInt64) : Binary64 :=
  let negative := bits.toNat / Text.signedLimit == 1
  let biased : Nat := bits.toNat / hiddenBit % 2048
  let fraction : Nat := bits.toNat % hiddenBit
  if biased = 2047 then
    if fraction = 0 then .infinite negative else .notANumber
  else if biased = 0 then .finite negative fraction lowestExponent
  else .finite negative (hiddenBit + fraction) (lowestExponent + ((biased - 1 : Nat) : Int))

def ofFloat (x : Float) : Binary64 := ofBits x.toBits

end Binary64

/-- Twice as close to zero as away from it: whether the next smaller double is
only half as far from `significand · 2 ^ exponent` as the next larger one. -/
def isAtBinade (significand : Nat) (exponent : Int) : Bool :=
  significand == Binary64.hiddenBit && Binary64.lowestExponent < exponent

/-- Numerator and denominator of `n · base ^ exponent`. -/
def fraction (n base : Nat) : Int → Nat × Nat
  | .ofNat e => (n * Nat.pow base e, 1)
  | .negSucc e => (n, Nat.pow base (e + 1))

end EventLog.Decimal
