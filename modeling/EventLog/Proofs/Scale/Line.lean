import EventLog.Scale.Basic
import Mathlib.Algebra.Order.Field.Rat
import Mathlib.Algebra.Order.Field.Power
import Mathlib.Tactic.FieldSimp
import Mathlib.Tactic.Linarith
import Mathlib.Tactic.Ring

/-!
# EventLog.Proofs.Scale.Line

The line that coefficients stand for, in exact numbers: every raw byte is worth one
step, counted from the reading of raw 0.

* `decode_eq`, `quotient_eq`: readings and raw bytes by step and origin;
* `SameLine.normalized`: moving decimal zeros into the exponents keeps the line;
* `InRange.normalized`: and multiplier and exponents stay in their ranges.
-/

namespace EventLog.Coefficients

open ScaleArithmetic

variable {c c' c'' : Coefficients}

/-- What one raw byte is worth. -/
def step (c : Coefficients) : Rat := c.m * 10 ^ c.rExp

/-- The reading of raw 0. -/
def origin (c : Coefficients) : Rat := c.b * 10 ^ (c.rExp + c.bExp)

/-- Where a reading stands between the raw bytes, before it is rounded. -/
def quotient (c : Coefficients) (reading : Rat) : Rat :=
  10 ^ (-c.rExp) * (reading - c.b * 10 ^ (c.rExp + c.bExp)) / c.m

/-- The multiplier is positive and fits nine bits, and the exponents fit four. -/
structure InRange (c : Coefficients) : Prop where
  multiplier : 1 ≤ c.m ∧ c.m ≤ 511
  rExp : -8 ≤ c.rExp ∧ c.rExp ≤ 7
  bExp : -8 ≤ c.bExp ∧ c.bExp ≤ 7

/-- Coefficients in range have a step above zero. -/
theorem InRange.step_pos (h : c.InRange) : 0 < c.step := by
  have hm : (1 : Rat) ≤ c.m := by exact_mod_cast h.multiplier.1
  exact mul_pos (by linarith) (zpow_pos (by norm_num) _)

/-- The reading of a raw byte is as many steps from the origin. -/
theorem decode_eq (c : Coefficients) (raw : Nat) :
    (c.decode raw : Rat) = raw * c.step + c.origin := by
  change ((c.m : Rat) * ((raw : Int) : Rat) + c.b * 10 ^ c.bExp) * 10 ^ c.rExp = _
  rw [step, origin, zpow_add₀ (by norm_num)]
  push_cast
  ring

/-- Where a reading stands is counted in steps from the origin. -/
theorem quotient_eq (c : Coefficients) (reading : Rat) :
    c.quotient reading = (reading - c.origin) / c.step := by
  rw [quotient, step, origin, zpow_neg]
  field_simp

/-- The raw byte of a reading, by where it stands. -/
theorem scale_eq (c : Coefficients) (reading : Rat) :
    c.scale reading = min 255 (roundAway (c.quotient reading)).toNat := rfl

/-! ## Decimal zeros -/

/-- Two coefficients stand for the same line. -/
structure SameLine (c c' : Coefficients) : Prop where
  step : c'.step = c.step
  origin : c'.origin = c.origin

theorem SameLine.refl (c : Coefficients) : SameLine c c := ⟨rfl, rfl⟩

theorem SameLine.trans (h : SameLine c c') (h' : SameLine c' c'') : SameLine c c'' :=
  ⟨h'.step.trans h.step, h'.origin.trans h.origin⟩

/-- A number that ends in a decimal zero, without it. -/
theorem tdiv_ten_mul_zpow {n : Int} (h : n.tmod 10 = 0) (e : Int) :
    ((n.tdiv 10 : Int) : Rat) * 10 ^ (e + 1) = n * 10 ^ e := by
  have hn : (10 : Rat) * ((n.tdiv 10 : Int) : Rat) = n := by
    exact_mod_cast Int.mul_tdiv_cancel_of_tmod_eq_zero h
  rw [zpow_add_one₀ (by norm_num), ← hn]
  ring

/-- An offset of zero may have any exponent. -/
theorem SameLine.zeroOffset (c : Coefficients) : SameLine c c.zeroOffset := by
  unfold Coefficients.zeroOffset
  split
  · next h => exact ⟨rfl, by simp [Coefficients.origin, h]⟩
  · exact SameLine.refl c

/-- Taking zeros off the multiplier leaves the line as it is. -/
theorem SameLine.shiftMultiplier (fuel : Nat) (c : Coefficients) :
    SameLine c (shiftMultiplier fuel c) := by
  induction fuel generalizing c with
  | zero => exact SameLine.refl c
  | succ fuel ih =>
    rw [Coefficients.shiftMultiplier]
    split
    · next h =>
      have hrest := ih { c with m := c.m.tdiv 10, rExp := c.rExp + 1, bExp := c.bExp - 1 }
      have hexp : c.rExp + 1 + (c.bExp - 1) = c.rExp + c.bExp := by omega
      refine ⟨hrest.step.trans (tdiv_ten_mul_zpow h.1 c.rExp), hrest.origin.trans ?_⟩
      simp only [Coefficients.origin, hexp]
    · exact SameLine.refl c

/-- Taking zeros off the offset leaves the line as it is. -/
theorem SameLine.shiftOffset (fuel : Nat) (c : Coefficients) :
    SameLine c (shiftOffset fuel c) := by
  induction fuel generalizing c with
  | zero => exact SameLine.refl c
  | succ fuel ih =>
    rw [Coefficients.shiftOffset]
    split
    · next h =>
      have hrest := ih { c with b := c.b.tdiv 10, bExp := c.bExp + 1 }
      have hzero := tdiv_ten_mul_zpow h.2.1 (c.rExp + c.bExp)
      rw [add_assoc] at hzero
      exact ⟨hrest.step, hrest.origin.trans hzero⟩
    · exact SameLine.refl c

/-- **Normalising keeps the line.** -/
theorem SameLine.normalized (c : Coefficients) : SameLine c c.normalized :=
  ((SameLine.zeroOffset c).trans (SameLine.shiftMultiplier 16 _)).trans
    ((SameLine.shiftOffset 16 _).trans (SameLine.zeroOffset _))

/-! ## Ranges -/

theorem InRange.zeroOffset (h : c.InRange) : c.zeroOffset.InRange := by
  unfold Coefficients.zeroOffset
  split
  · exact ⟨h.multiplier, h.rExp, by dsimp only; omega⟩
  · exact h

/-- One zero moved out of the multiplier. -/
theorem InRange.moveMultiplier (h : c.InRange)
    (hzero : c.m.tmod 10 = 0 ∧ c.rExp < highestExponent ∧ lowestExponent < c.bExp) :
    InRange { c with m := c.m.tdiv 10, rExp := c.rExp + 1, bExp := c.bExp - 1 } := by
  obtain ⟨hmod, hr, hb⟩ := hzero
  have hm := Int.mul_tdiv_cancel_of_tmod_eq_zero hmod
  have hmult := h.multiplier
  have hrExp := h.rExp
  have hbExp := h.bExp
  simp only [highestExponent, lowestExponent] at hr hb
  exact ⟨by dsimp only; omega, by dsimp only; omega, by dsimp only; omega⟩

/-- One zero moved out of the offset. -/
theorem InRange.moveOffset (h : c.InRange)
    (hzero : c.b ≠ 0 ∧ c.b.tmod 10 = 0 ∧ c.bExp < highestExponent) :
    InRange { c with b := c.b.tdiv 10, bExp := c.bExp + 1 } := by
  have hbExp := h.bExp
  have hb := hzero.2.2
  simp only [highestExponent] at hb
  exact ⟨h.multiplier, h.rExp, by dsimp only; omega⟩

/-- Taking zeros off the multiplier leaves the coefficients in range. -/
theorem InRange.shiftMultiplier (h : c.InRange) (fuel : Nat) :
    (shiftMultiplier fuel c).InRange := by
  induction fuel generalizing c with
  | zero => exact h
  | succ fuel ih =>
    rw [Coefficients.shiftMultiplier]
    split
    · next hzero => exact ih (h.moveMultiplier hzero)
    · exact h

/-- Taking zeros off the offset leaves the coefficients in range. -/
theorem InRange.shiftOffset (h : c.InRange) (fuel : Nat) : (shiftOffset fuel c).InRange := by
  induction fuel generalizing c with
  | zero => exact h
  | succ fuel ih =>
    rw [Coefficients.shiftOffset]
    split
    · next hzero => exact ih (h.moveOffset hzero)
    · exact h

/-- **Normalising keeps the ranges** of multiplier and exponents. -/
theorem InRange.normalized (h : c.InRange) : c.normalized.InRange :=
  ((h.zeroOffset.shiftMultiplier 16).shiftOffset 16).zeroOffset

end EventLog.Coefficients
