import EventLog.Scale.Arithmetic
import EventLog.Decimal.Shortest

/-!
# EventLog.Scale.Basic

Sensor readings in one byte.  Coefficients stand for the line

    reading = (m · raw + b · 10 ^ bExp) · 10 ^ rExp

Raw 0 tracks the lower end of a sensor's range and raw 255 the upper end.  The
multiplier lies between 1 and 511 and the exponents between -8 and 7; the
offset may use sixteen bits, which keeps raw 0 close to the lower end of a
range that is narrow for its magnitude.
-/

namespace EventLog

/-- The coefficients of a line from raw bytes to readings. -/
structure Coefficients where
  m : Int
  rExp : Int
  b : Int
  bExp : Int
  deriving DecidableEq, Repr

/-- Why a range has no coefficients. -/
inductive ScaleError (α : Type) where
  | illegalRange (low high : α)
  | notFinite
  | unrepresentable (low high : α)

def ScaleError.message : ScaleError Float → String
  | illegalRange low high =>
    "illegal sensor range: max " ++ Decimal.plain high ++ " must exceed min " ++ Decimal.plain low
  | notFinite => "sensor attributes must be finite"
  | unrepresentable low high =>
    "range [" ++ Decimal.plain low ++ ", " ++ Decimal.plain high
      ++ "] cannot be represented by scaling coefficients"

namespace Coefficients

open ScaleArithmetic

def multiplierLimit : Int := 511

/-- The lowest exponent. -/
def lowestExponent : Int := -8

def highestExponent : Int := 7

def fullScale : Nat := 255

def exponents : List Int := (List.range 16).map fun (n : Nat) => lowestExponent + (n : Int)

/-- Moves decimal zeros from the multiplier into its exponent; the offset's
exponent makes up for it. -/
def shiftMultiplier : Nat → Coefficients → Coefficients
  | 0, c => c
  | fuel + 1, c =>
    if c.m.tmod 10 = 0 ∧ c.rExp < highestExponent ∧ lowestExponent < c.bExp then
      shiftMultiplier fuel { c with m := c.m.tdiv 10, rExp := c.rExp + 1, bExp := c.bExp - 1 }
    else c

/-- Moves decimal zeros from the offset into its exponent. -/
def shiftOffset : Nat → Coefficients → Coefficients
  | 0, c => c
  | fuel + 1, c =>
    if c.b ≠ 0 ∧ c.b.tmod 10 = 0 ∧ c.bExp < highestExponent then
      shiftOffset fuel { c with b := c.b.tdiv 10, bExp := c.bExp + 1 }
    else c

/-- An offset of zero has the exponent zero. -/
def zeroOffset (c : Coefficients) : Coefficients :=
  if c.b = 0 then { c with bExp := 0 } else c

/-- The same line with the decimal zeros of multiplier and offset in the
exponents.  Every step moves an exponent by one, so sixteen steps are enough. -/
def normalized (c : Coefficients) : Coefficients :=
  (shiftOffset 16 (shiftMultiplier 16 c.zeroOffset)).zeroOffset

variable {α : Type} [ScaleArithmetic α]

def decode (c : Coefficients) (raw : Nat) : α :=
  (ofInt c.m * ofInt (raw : Int) + ofInt c.b * pow10 c.bExp) * pow10 c.rExp

/-- The raw byte of a reading: the nearest one, and the first or last byte for
readings outside the line's range. -/
def scale (c : Coefficients) (reading : α) : Nat :=
  let offset : α := ofInt c.b * pow10 (c.rExp + c.bExp)
  roundClamped fullScale ((pow10 (-c.rExp) * (reading - offset)) / ofInt c.m)

/-- Coefficients for a range with the given exponents.  The offset is rounded
down and the multiplier up, so raw 0 is never above the range and raw 255 never
below it; a step of more than two ideal steps is refused. -/
def fit? (low high : α) (rExp bExp : Int) (idealStep : α) : Option Coefficients := do
  let unit : α := pow10 (bExp + rExp)
  let b ← floorWithin (-32768) 32767 (low / unit + margin)
  let offset : α := ofInt b * unit
  let m ← ceilWithin 1 multiplierLimit
    ((high - offset) / ofInt (fullScale : Int) * pow10 (-rExp) - margin)
  if isLess (ofInt 2 * idealStep) (ofInt m * pow10 rExp) then none
  else some ⟨m, rExp, b, bExp⟩

/-- Coefficients for a range: the finest exponent of the multiplier that has
any, and for it the finest exponent of the offset. -/
def derive? (low high : α) : Except (ScaleError α) Coefficients :=
  if !isFinite low || !isFinite high then .error .notFinite
  else if !isLess low high then .error (.illegalRange low high)
  else
    let idealStep : α := (high - low) / ofInt (fullScale : Int)
    let found := exponents.findSome? fun rExp =>
      if isLess (ofInt multiplierLimit) (idealStep * pow10 (-rExp)) then none
      else exponents.findSome? fun bExp => fit? low high rExp bExp idealStep
    match found with
    | some c => .ok c.normalized
    | none => .error (.unrepresentable low high)

/-- The raw byte of a reading on the line of a range. -/
def scaleWithin? (reading low high : α) : Except (ScaleError α) Nat := do
  if !isFinite reading then throw .notFinite
  return (← derive? low high).scale reading

end Coefficients

end EventLog
