import EventLog.Proofs.Scale.Line

/-!
# EventLog.Proofs.Scale.Normal

The normal form of coefficients, worked out in fields of a fixed width: sixteen bits for
multiplier and offset, eight for the exponents.  `Coefficients.normalized` calculates
with whole numbers of any size and counts its rounds; here nothing bounds the rounds and
every result has to fit its field.

* `LoopEnds`: a loop comes to an end, with rounds that may fail;
* `loopEnds_counted`: it ends where the counted one does, if something becomes less with
  every round;
* `Normalizes`: the normal form by two such loops, in fields of a fixed width;
* `Fits.multiplierLoop`, `Fits.offsetLoop`: the loops end, and nothing overflows;
* `normalized_strips_zeros`: so the normal form is reached, the line is kept, and a decimal
  zero is left only where an exponent has no room for it.
-/

namespace EventLog

/-! ## Loops -/

section Loop

variable {σ : Type} {guard : σ → Prop} {round? : σ → Option σ} {s s' s'' : σ}

/-- A loop with a round as long as the guard holds comes to an end, in the second state.
There is no end behind a round that fails, nor where the guard holds for ever. -/
inductive LoopEnds (guard : σ → Prop) (round? : σ → Option σ) : σ → σ → Prop
  | stop {s : σ} (hstop : ¬ guard s) : LoopEnds guard round? s s
  | round {s s' s'' : σ} (hguard : guard s) (hround : round? s = some s')
    (hrest : LoopEnds guard round? s' s'') : LoopEnds guard round? s s''

/-- A loop ends where its guard fails. -/
theorem LoopEnds.not_guard (h : LoopEnds guard round? s s') : ¬ guard s' := by
  induction h with
  | stop hstop => exact hstop
  | round _ _ _ ih => exact ih

/-- A loop ends in one state at most. -/
theorem LoopEnds.unique (h : LoopEnds guard round? s s') (h' : LoopEnds guard round? s s'') :
    s'' = s' := by
  induction h with
  | stop hstop =>
    cases h' with
    | stop => rfl
    | round hguard => exact absurd hguard hstop
  | round hguard hround _ ih =>
    cases h' with
    | stop hstop => exact absurd hguard hstop
    | round _ hround' hrest =>
      cases hround.symm.trans hround'
      exact ih hrest

/-- A loop ends where its counted form does, if under an invariant each round has a
result, keeps the invariant and leaves fewer rounds to come. -/
theorem loopEnds_counted [DecidablePred guard] {counted : Nat → σ → σ} {next : σ → σ}
    {inv : σ → Prop} (left : σ → Nat) (hzero : ∀ s, counted 0 s = s)
    (hsucc : ∀ fuel s, counted (fuel + 1) s = if guard s then counted fuel (next s) else s)
    (hround : ∀ s, inv s → guard s →
      round? s = some (next s) ∧ inv (next s) ∧ left (next s) < left s)
    (fuel : Nat) (h : inv s) (hleft : left s ≤ fuel) :
    LoopEnds guard round? s (counted fuel s) ∧ inv (counted fuel s) := by
  induction fuel generalizing s with
  | zero =>
    -- A round that is still due would leave fewer than none.
    have hstop : ¬ guard s := fun hguard => by
      have := (hround s h hguard).2.2
      omega
    rw [hzero]
    exact ⟨.stop hstop, h⟩
  | succ fuel ih =>
    rw [hsucc]
    split
    · next hguard =>
      obtain ⟨hsome, hinv, hless⟩ := hround s h hguard
      obtain ⟨hrest, hend⟩ := ih hinv (by omega)
      exact ⟨.round hguard hsome hrest, hend⟩
    · next hstop => exact ⟨.stop hstop, h⟩

end Loop

namespace Coefficients

open ScaleArithmetic

variable {c : Coefficients} {n : Int}

/-! ## Fields of a fixed width -/

/-- A result of sixteen bits, if it fits. -/
def word? (n : Int) : Option Int := within? (-32768) 32767 n

/-- A result of eight bits, if it fits. -/
def octet? (n : Int) : Option Int := within? (-128) 127 n

theorem word?_eq_some (h : -32768 ≤ n ∧ n ≤ 32767) : word? n = some n := if_pos h

theorem octet?_eq_some (h : -128 ≤ n ∧ n ≤ 127) : octet? n = some n := if_pos h

/-- Multiplier and exponents are in range, and the offset has sixteen bits. -/
structure Fits (c : Coefficients) : Prop extends c.InRange where
  offset : -32768 ≤ c.b ∧ c.b ≤ 32767

/-! ## The rounds -/

/-- The multiplier ends in a zero, and both exponents have room to move it. -/
def MultiplierMoves (c : Coefficients) : Prop :=
  c.m.tmod 10 = 0 ∧ c.rExp < highestExponent ∧ lowestExponent < c.bExp
  deriving Decidable

/-- The offset ends in a zero, and its exponent has room to move it. -/
def OffsetMoves (c : Coefficients) : Prop :=
  c.b ≠ 0 ∧ c.b.tmod 10 = 0 ∧ c.bExp < highestExponent
  deriving Decidable

/-- One zero of the multiplier moved, every result checked.  A quotient or a remainder by
ten cannot overflow; an exponent that goes up or down could. -/
def multiplierRound? (c : Coefficients) : Option Coefficients := do
  let m ← word? (c.m.tdiv 10)
  let rExp ← octet? (c.rExp + 1)
  let bExp ← octet? (c.bExp - 1)
  return { c with m, rExp, bExp }

/-- One zero of the offset moved, every result checked. -/
def offsetRound? (c : Coefficients) : Option Coefficients := do
  let b ← word? (c.b.tdiv 10)
  let bExp ← octet? (c.bExp + 1)
  return { c with b, bExp }

/-- The loop over the zeros of the multiplier. -/
def MultiplierLoop : Coefficients → Coefficients → Prop :=
  LoopEnds MultiplierMoves multiplierRound?

/-- The loop over the zeros of the offset. -/
def OffsetLoop : Coefficients → Coefficients → Prop :=
  LoopEnds OffsetMoves offsetRound?

/-- The normal form is reached in the fields: both loops come to an end. -/
def Normalizes (c normal : Coefficients) : Prop :=
  ∃ moved, MultiplierLoop c.zeroOffset moved ∧
    ∃ last, OffsetLoop moved last ∧ normal = last.zeroOffset

/-- The fields reach one normal form at most. -/
theorem Normalizes.unique {normal other : Coefficients} (h : Normalizes c normal)
    (h' : Normalizes c other) : other = normal := by
  obtain ⟨moved, hmoved, last, hlast, rfl⟩ := h
  obtain ⟨moved', hmoved', last', hlast', rfl⟩ := h'
  cases hmoved.unique hmoved'
  cases hlast.unique hlast'
  rfl

/-! ## What a round keeps -/

@[simp] theorem zeroOffset_m (c : Coefficients) : c.zeroOffset.m = c.m := by
  unfold zeroOffset
  split <;> rfl

@[simp] theorem zeroOffset_rExp (c : Coefficients) : c.zeroOffset.rExp = c.rExp := by
  unfold zeroOffset
  split <;> rfl

@[simp] theorem zeroOffset_b (c : Coefficients) : c.zeroOffset.b = c.b := by
  unfold zeroOffset
  split <;> rfl

theorem zeroOffset_bExp (c : Coefficients) :
    c.zeroOffset.bExp = if c.b = 0 then 0 else c.bExp := by
  unfold zeroOffset
  split <;> rfl

theorem Fits.zeroOffset (h : c.Fits) : c.zeroOffset.Fits :=
  ⟨h.toInRange.zeroOffset, by rw [zeroOffset_b]; exact h.offset⟩

theorem Fits.moveMultiplier (h : c.Fits) (hmoves : c.MultiplierMoves) :
    Fits { c with m := c.m.tdiv 10, rExp := c.rExp + 1, bExp := c.bExp - 1 } :=
  ⟨h.toInRange.moveMultiplier hmoves, h.offset⟩

/-- A zero taken off the offset leaves the coefficients where they fit. -/
theorem Fits.moveOffset (h : c.Fits) (hmoves : c.OffsetMoves) :
    Fits { c with b := c.b.tdiv 10, bExp := c.bExp + 1 } := by
  have hten := Int.mul_tdiv_cancel_of_tmod_eq_zero hmoves.2.1
  have hoffset := h.offset
  exact ⟨h.toInRange.moveOffset hmoves, by dsimp only; omega⟩

/-- A round of the multiplier overflows nowhere. -/
theorem Fits.multiplierRound?_eq (h : c.Fits) (hmoves : c.MultiplierMoves) :
    multiplierRound? c =
      some { c with m := c.m.tdiv 10, rExp := c.rExp + 1, bExp := c.bExp - 1 } := by
  -- The results are the fields of the next coefficients, which are in range.
  have hnext := h.moveMultiplier hmoves
  have hm : 1 ≤ c.m.tdiv 10 ∧ c.m.tdiv 10 ≤ 511 := hnext.multiplier
  have hr : -8 ≤ c.rExp + 1 ∧ c.rExp + 1 ≤ 7 := hnext.rExp
  have hb : -8 ≤ c.bExp - 1 ∧ c.bExp - 1 ≤ 7 := hnext.bExp
  rw [multiplierRound?, word?_eq_some (by omega), octet?_eq_some (by omega),
    octet?_eq_some (by omega)]
  rfl

/-- Out of range, an exponent at the end of its eight bits overflows. -/
example : multiplierRound? ⟨10, 127, 0, 0⟩ = none := by decide

/-- A round of the offset overflows nowhere. -/
theorem Fits.offsetRound?_eq (h : c.Fits) (hmoves : c.OffsetMoves) :
    offsetRound? c = some { c with b := c.b.tdiv 10, bExp := c.bExp + 1 } := by
  have hnext := h.moveOffset hmoves
  have hb : -8 ≤ c.bExp + 1 ∧ c.bExp + 1 ≤ 7 := hnext.bExp
  rw [offsetRound?, word?_eq_some hnext.offset, octet?_eq_some (by omega)]
  rfl

/-! ## What the loops leave -/

/-- Every round of the multiplier raises its exponent, so sixteen are enough. -/
theorem Fits.multiplierLoop (h : c.Fits) :
    MultiplierLoop c (shiftMultiplier 16 c) ∧ (shiftMultiplier 16 c).Fits := by
  refine loopEnds_counted (fun c => (7 - c.rExp).toNat) (fun _ => rfl) (fun _ _ => rfl)
    (fun c h hmoves => ⟨h.multiplierRound?_eq hmoves, h.moveMultiplier hmoves, ?_⟩) 16 h ?_
  · have hr : c.rExp < 7 := hmoves.2.1
    change (7 - (c.rExp + 1)).toNat < (7 - c.rExp).toNat
    omega
  · have hr := h.rExp
    omega

/-- Every round of the offset raises its exponent, so sixteen are enough. -/
theorem Fits.offsetLoop (h : c.Fits) :
    OffsetLoop c (shiftOffset 16 c) ∧ (shiftOffset 16 c).Fits := by
  refine loopEnds_counted (fun c => (7 - c.bExp).toNat) (fun _ => rfl) (fun _ _ => rfl)
    (fun c h hmoves => ⟨h.offsetRound?_eq hmoves, h.moveOffset hmoves, ?_⟩) 16 h ?_
  · have hb : c.bExp < 7 := hmoves.2.2
    change (7 - (c.bExp + 1)).toNat < (7 - c.bExp).toNat
    omega
  · have hb := h.bExp
    omega

/-- Nothing overflows on the way to the normal form, and it is reached. -/
theorem Fits.normalizes (h : c.Fits) : Normalizes c c.normalized ∧ c.normalized.Fits := by
  obtain ⟨hmultiplier, hmoved⟩ := h.zeroOffset.multiplierLoop
  obtain ⟨hoffset, hlast⟩ := hmoved.offsetLoop
  exact ⟨⟨_, hmultiplier, _, hoffset, rfl⟩, hlast.zeroOffset⟩

/-! ## Zeros that stay -/

/-- Moving the zeros of the offset does not touch the multiplier. -/
theorem shiftOffset_frame (fuel : Nat) (c : Coefficients) :
    (shiftOffset fuel c).m = c.m ∧ (shiftOffset fuel c).rExp = c.rExp := by
  induction fuel generalizing c with
  | zero => exact ⟨rfl, rfl⟩
  | succ fuel ih =>
    rw [shiftOffset]
    split
    · exact ih _
    · exact ⟨rfl, rfl⟩

theorem normalized_m (c : Coefficients) :
    c.normalized.m = (shiftMultiplier 16 c.zeroOffset).m := by
  rw [normalized, zeroOffset_m, (shiftOffset_frame 16 _).1]

theorem normalized_rExp (c : Coefficients) :
    c.normalized.rExp = (shiftMultiplier 16 c.zeroOffset).rExp := by
  rw [normalized, zeroOffset_rExp, (shiftOffset_frame 16 _).2]

/-- A zero stays in the multiplier for want of room in one of the exponents. -/
theorem Fits.of_dvd_normalized_m (h : c.Fits) (hzero : 10 ∣ c.normalized.m) :
    c.normalized.rExp = 7 ∨ (shiftMultiplier 16 c.zeroOffset).bExp = -8 := by
  obtain ⟨hloop, hfits⟩ := h.zeroOffset.multiplierLoop
  have hr := hfits.rExp
  have hb := hfits.bExp
  rw [normalized_m] at hzero
  rw [normalized_rExp]
  -- With room in both exponents another round would have been due.
  by_contra hroom
  refine hloop.not_guard ⟨Int.tmod_eq_zero_of_dvd hzero, ?_, ?_⟩
  · rw [highestExponent]
    omega
  · rw [lowestExponent]
    omega

/-- A zero stays in the offset for want of room in its exponent. -/
theorem Fits.of_dvd_normalized_b (h : c.Fits) (hne : c.normalized.b ≠ 0)
    (hzero : 10 ∣ c.normalized.b) : c.normalized.bExp = 7 := by
  obtain ⟨hloop, hfits⟩ := h.zeroOffset.multiplierLoop.2.offsetLoop
  have hb := hfits.bExp
  rw [normalized, zeroOffset_b] at hne hzero
  rw [normalized, zeroOffset_bExp, if_neg hne]
  by_contra hroom
  refine hloop.not_guard ⟨hne, Int.tmod_eq_zero_of_dvd hzero, ?_⟩
  rw [highestExponent]
  omega

/-- **The normal form is reached without an overflow and stands for the same line**; a
decimal zero is left only where an exponent has no room for it. -/
theorem normalized_strips_zeros (h : c.Fits) :
    (∀ normal, Normalizes c normal ↔ normal = c.normalized) ∧
    (1 ≤ c.normalized.m ∧ c.normalized.m ≤ 511) ∧
    (-8 ≤ c.normalized.rExp ∧ c.normalized.rExp ≤ 7) ∧
    (-8 ≤ c.normalized.bExp ∧ c.normalized.bExp ≤ 7) ∧
    (c.normalized.m : Rat) * 10 ^ c.normalized.rExp = c.m * 10 ^ c.rExp ∧
    (c.normalized.b : Rat) * 10 ^ (c.normalized.bExp + c.normalized.rExp) =
      c.b * 10 ^ (c.bExp + c.rExp) ∧
    (c.normalized.b = 0 → c.normalized.bExp = 0) ∧
    (10 ∣ c.normalized.m → c.normalized.rExp = 7 ∨
      ∃ moved, MultiplierLoop c.zeroOffset moved ∧ moved.bExp = -8) ∧
    (c.normalized.b ≠ 0 → 10 ∣ c.normalized.b → c.normalized.bExp = 7) := by
  obtain ⟨hreached, hfits⟩ := h.normalizes
  have hline := SameLine.normalized c
  refine ⟨fun normal => ⟨hreached.unique, fun e => e ▸ hreached⟩, hfits.multiplier, hfits.rExp,
    hfits.bExp, hline.step, ?_, ?_, ?_, h.of_dvd_normalized_b⟩
  · rw [add_comm c.bExp, add_comm c.normalized.bExp]
    exact hline.origin
  · intro hb
    rw [normalized, zeroOffset_b] at hb
    rw [normalized, zeroOffset_bExp, if_pos hb]
  · intro hzero
    exact (h.of_dvd_normalized_m hzero).imp_right fun hlow =>
      ⟨_, h.zeroOffset.multiplierLoop.1, hlow⟩

/-- The offset's exponent runs out after one zero of the multiplier; the zeros of the offset
then give it room again. -/
theorem normalized_strips_zeros_of_low_exponent :
    let c : Coefficients := ⟨500, -3, 12000, -7⟩
    c.Fits ∧ Normalizes c ⟨50, -2, 12, -5⟩ ∧
      (50 : Rat) * 10 ^ (-2 : Int) = 500 * 10 ^ (-3 : Int) ∧
      (12 : Rat) * 10 ^ (-5 + -2 : Int) = 12000 * 10 ^ (-7 + -3 : Int) ∧
      ∃ moved, MultiplierLoop c.zeroOffset moved ∧ moved.bExp = -8 := by
  intro c
  have hfits : c.Fits := ⟨⟨by decide, by decide, by decide⟩, by decide⟩
  have hnormal : c.normalized = ⟨50, -2, 12, -5⟩ := by decide
  obtain ⟨hreached, -, -, -, hstep, horigin, -, hzero, -⟩ := normalized_strips_zeros hfits
  rw [hnormal] at hreached hstep horigin hzero
  exact ⟨hfits, (hreached _).mpr rfl, hstep, horigin, (hzero (by decide)).resolve_left (by decide)⟩

end Coefficients

end EventLog
