import EventLog.Proofs.Scale.Line

/-!
# EventLog.Proofs.Scale.Deviation

How far a reading comes back from its raw byte, in exact numbers.

* `abs_roundAway_sub_le`, `roundAway_mono`: the nearest whole number;
* `Covers`: a line that starts hardly above a range and ends hardly below it, with
  steps of at most two ideal ones;
* `covers_of_fit?`, `covers_of_derive?`: the lines that are found are such lines;
* `deviation_le_ideal_step`: so a reading of the range comes back within one ideal step.
-/

namespace EventLog

namespace ScaleArithmetic

variable {x y : Rat}

/-! ## The nearest whole number -/

/-- A conversion that is checked gives the number itself, if it is between the bounds. -/
theorem within?_eq_some {low high n m : Int} :
    within? low high n = some m ↔ n = m ∧ low ≤ m ∧ m ≤ high := by
  unfold within?
  split
  · next h =>
    rw [Option.some.injEq]
    exact ⟨fun e => ⟨e, e ▸ h⟩, fun e => e.1⟩
  · next h =>
    refine ⟨fun e => (by cases e), fun ⟨e, hrange⟩ => absurd ?_ h⟩
    rwa [e]

/-- Rounding to the nearest whole number moves a number by half at most. -/
theorem abs_floor_half_sub_le (x : Rat) : |((x + 1 / 2).floor : Rat) - x| ≤ 1 / 2 := by
  have hle := Rat.floor_le (x + 1 / 2)
  have hlt := Rat.lt_floor_add_one (x + 1 / 2)
  push_cast at hlt
  rw [abs_le]
  constructor <;> linarith

/-- The nearest whole number is at most a half away. -/
theorem abs_roundAway_sub_le (x : Rat) : |(roundAway x : Rat) - x| ≤ 1 / 2 := by
  unfold roundAway
  split
  · exact abs_floor_half_sub_le x
  · have hneg : ((-(-x + 1 / 2).floor : Int) : Rat) - x = -(((-x + 1 / 2).floor : Rat) - -x) := by
      push_cast
      ring
    rw [hneg, abs_neg]
    exact abs_floor_half_sub_le (-x)

/-- Numbers above minus a half are not rounded below zero. -/
theorem roundAway_nonneg (h : -1 / 2 < x) : 0 ≤ roundAway x := by
  unfold roundAway
  split
  · rw [Rat.le_floor_iff]
    push_cast
    linarith
  · have : (-x + 1 / 2).floor < 1 := by
      rw [Rat.floor_lt_iff]
      push_cast
      linarith
    omega

/-- Numbers less than a half beyond a whole number are not rounded above it. -/
theorem roundAway_le {n : Int} (hn : 0 ≤ n) (h : x < n + 1 / 2) : roundAway x ≤ n := by
  unfold roundAway
  split
  · have : (x + 1 / 2).floor < n + 1 := by
      rw [Rat.floor_lt_iff]
      push_cast
      linarith
    omega
  · next hneg =>
    have : 0 ≤ (-x + 1 / 2).floor := by
      rw [Rat.le_floor_iff]
      push_cast
      linarith
    omega

/-- A greater number has no lesser nearest whole number. -/
theorem roundAway_mono (h : x ≤ y) : roundAway x ≤ roundAway y := by
  by_cases hx : 0 ≤ x
  · rw [roundAway, roundAway, if_pos hx, if_pos (hx.trans h)]
    exact Rat.floor_monotone (by linarith)
  · by_cases hy : 0 ≤ y
    · have hnonpos : roundAway x ≤ 0 := roundAway_le le_rfl (by push_cast; linarith)
      exact hnonpos.trans (roundAway_nonneg (by linarith))
    · rw [roundAway, roundAway, if_neg hx, if_neg hy]
      exact neg_le_neg (Rat.floor_monotone (by linarith))

end ScaleArithmetic

namespace Coefficients

open ScaleArithmetic

variable {low high : Rat} {c c' : Coefficients}

/-! ## Lines for a range -/

/-- The line starts at most a quarter of a step above the range and ends at most as
much below it, and its steps are at most two ideal ones. -/
structure Covers (low high : Rat) (c : Coefficients) : Prop where
  inRange : c.InRange
  start : c.origin ≤ low + c.step / 4
  stop : high ≤ c.origin + (255 + 1 / 4) * c.step
  fine : c.step ≤ 2 * ((high - low) / 255)

/-- Coefficients cover the same range when their zeros are taken off. -/
theorem Covers.normalized (h : Covers low high c) : Covers low high c.normalized := by
  obtain ⟨hstep, horigin⟩ := SameLine.normalized c
  exact ⟨h.inRange.normalized, by rw [hstep, horigin]; exact h.start,
    by rw [hstep, horigin]; exact h.stop, by rw [hstep]; exact h.fine⟩

/-- What a fit with given exponents is: the offset is rounded down and the multiplier up,
each but for the margin. -/
theorem of_fit? {rExp bExp : Int} (h : fit? low high rExp bExp ((high - low) / 255) = some c) :
    c.rExp = rExp ∧ c.bExp = bExp ∧ (1 ≤ c.m ∧ c.m ≤ 511) ∧
      (c.b : Rat) ≤ low / 10 ^ (bExp + rExp) + 1 / 1000000000 ∧
      (high - c.b * 10 ^ (bExp + rExp)) / 255 * 10 ^ (-rExp) - 1 / 1000000000 ≤ c.m ∧
      c.m * 10 ^ rExp ≤ 2 * ((high - low) / 255) := by
  obtain ⟨b, hb, h⟩ := Option.bind_eq_some_iff.mp h
  obtain ⟨m, hm, h⟩ := Option.bind_eq_some_iff.mp h
  split at h
  · cases h
  · next hfine =>
    cases h
    obtain ⟨hfloor, -⟩ := within?_eq_some.mp hb
    obtain ⟨hceil, hrange⟩ := within?_eq_some.mp hm
    have hfine : ¬ (2 : Rat) * ((high - low) / 255) < m * 10 ^ rExp := fun hlt =>
      hfine (decide_eq_true hlt)
    refine ⟨rfl, rfl, hrange, ?_, ?_, not_lt.mp hfine⟩
    · have hle := Rat.floor_le (low / 10 ^ (bExp + rExp) + 1 / 1000000000)
      rwa [← hfloor]
    · have hle := Rat.ceil_le_iff.mp (le_of_eq hceil)
      exact hle

/-- The margins that a fit leaves are small beside a step. -/
theorem covers_of_fit? {rExp bExp : Int} (hr : -8 ≤ rExp ∧ rExp ≤ 7) (hb : -8 ≤ bExp ∧ bExp ≤ 7)
    (h : fit? low high rExp bExp ((high - low) / 255) = some c) : Covers low high c := by
  obtain ⟨rfl, rfl, hm, hoffset, hmultiplier, hfine⟩ := of_fit? h
  have hpower : (0 : Rat) < 10 ^ c.rExp := zpow_pos (by norm_num) _
  have hunit : (10 : Rat) ^ (c.bExp + c.rExp) = 10 ^ c.bExp * 10 ^ c.rExp :=
    zpow_add₀ (by norm_num) _ _
  have horigin : c.origin = c.b * (10 ^ c.bExp * 10 ^ c.rExp) := by
    rw [origin, add_comm, hunit]
  have hstep : (10 : Rat) ^ c.rExp ≤ c.step := by
    have hone : (1 : Rat) ≤ c.m := by exact_mod_cast hm.1
    exact le_mul_of_one_le_left hpower.le hone
  rw [hunit] at hoffset hmultiplier
  refine ⟨⟨hm, hr, hb⟩, ?_, ?_, hfine⟩
  · -- A unit is at most ten million powers of the multiplier.
    have hbig : (10 : Rat) ^ c.bExp ≤ 10000000 := by
      calc (10 : Rat) ^ c.bExp ≤ 10 ^ (7 : Int) := zpow_le_zpow_right₀ (by norm_num) hb.2
        _ = 10000000 := by norm_num
    have hpos : (0 : Rat) < 10 ^ c.bExp * 10 ^ c.rExp := mul_pos (zpow_pos (by norm_num) _) hpower
    have hsmall : (10 : Rat) ^ c.bExp * 10 ^ c.rExp ≤ 10000000 * c.step := by gcongr
    calc c.origin
        ≤ (low / (10 ^ c.bExp * 10 ^ c.rExp) + 1 / 1000000000)
            * (10 ^ c.bExp * 10 ^ c.rExp) := by
          rw [horigin]
          gcongr
      _ = low + 1 / 1000000000 * (10 ^ c.bExp * 10 ^ c.rExp) := by
          rw [add_mul, div_mul_cancel₀ _ hpos.ne']
      _ ≤ low + c.step / 4 := by linarith
  · rw [← horigin, zpow_neg] at hmultiplier
    have hle : high - c.origin ≤ (c.m + 1 / 1000000000) * (255 * 10 ^ c.rExp) := by
      calc high - c.origin
          = (high - c.origin) / 255 * (10 ^ c.rExp)⁻¹ * (255 * 10 ^ c.rExp) := by field_simp
        _ ≤ (c.m + 1 / 1000000000) * (255 * 10 ^ c.rExp) := by
          gcongr
          linarith
    have hsplit : ((c.m : Rat) + 1 / 1000000000) * (255 * 10 ^ c.rExp)
        = 255 * c.step + 255 / 1000000000 * 10 ^ c.rExp := by
      rw [step]
      ring
    linarith

theorem bounds_of_mem_exponents {e : Int} (h : e ∈ exponents) : -8 ≤ e ∧ e ≤ 7 := by
  obtain ⟨n, hn, rfl⟩ := List.mem_map.mp h
  rw [List.mem_range] at hn
  rw [lowestExponent]
  omega

/-- The coefficients of a range stand for a line that covers it. -/
theorem covers_of_derive? (h : derive? low high = .ok c) : Covers low high c := by
  rw [derive?] at h
  split at h
  · cases h
  · split at h
    · cases h
    · dsimp only at h
      split at h
      · next fitted hfound =>
        cases h
        obtain ⟨rExp, hr, hfound⟩ := List.exists_of_findSome?_eq_some hfound
        split at hfound
        · cases hfound
        · obtain ⟨bExp, hb, hfit⟩ := List.exists_of_findSome?_eq_some hfound
          exact (covers_of_fit? (bounds_of_mem_exponents hr) (bounds_of_mem_exponents hb)
            hfit).normalized
      · cases h

/-! ## Readings of the range -/

section Reading

variable {reading : Rat}

/-- The quotient of a reading in the range is a quarter outside of a byte at most. -/
theorem Covers.quotient_bounds (h : Covers low high c) (hlow : low ≤ reading)
    (hhigh : reading ≤ high) :
    -1 / 4 ≤ c.quotient reading ∧ c.quotient reading ≤ 255 + 1 / 4 := by
  have hstep := h.inRange.step_pos
  have hstart := h.start
  have hstop := h.stop
  rw [quotient_eq, le_div_iff₀ hstep, div_le_iff₀ hstep]
  constructor <;> linarith

/-- A reading in the range is rounded to a byte. -/
theorem Covers.roundAway_bounds (h : Covers low high c) (hlow : low ≤ reading)
    (hhigh : reading ≤ high) :
    0 ≤ roundAway (c.quotient reading) ∧ roundAway (c.quotient reading) ≤ 255 := by
  obtain ⟨hge, hle⟩ := h.quotient_bounds hlow hhigh
  exact ⟨roundAway_nonneg (by linarith), roundAway_le (by omega) (by push_cast; linarith)⟩

/-- Within the range, the raw byte is the nearest one as it is. -/
theorem Covers.scale_eq_roundAway (h : Covers low high c) (hlow : low ≤ reading)
    (hhigh : reading ≤ high) : (c.scale reading : Int) = roundAway (c.quotient reading) := by
  obtain ⟨hge, hle⟩ := h.roundAway_bounds hlow hhigh
  rw [scale_eq]
  omega

/-- A reading comes back within half a step. -/
theorem Covers.abs_decode_scale_sub_le (h : Covers low high c) (hlow : low ≤ reading)
    (hhigh : reading ≤ high) : |c.decode (c.scale reading) - reading| ≤ c.step / 2 := by
  have hstep := h.inRange.step_pos
  have hscale : ((c.scale reading : Nat) : Rat) = (roundAway (c.quotient reading) : Rat) := by
    exact_mod_cast h.scale_eq_roundAway hlow hhigh
  have hreading : c.quotient reading * c.step = reading - c.origin := by
    rw [quotient_eq, div_mul_cancel₀ _ hstep.ne']
  calc |c.decode (c.scale reading) - reading|
      = |((roundAway (c.quotient reading) : Rat) - c.quotient reading) * c.step| := by
        rw [decode_eq, hscale, sub_mul, hreading]
        congr 1
        ring
    _ = |(roundAway (c.quotient reading) : Rat) - c.quotient reading| * c.step := by
        rw [abs_mul, abs_of_pos hstep]
    _ ≤ 1 / 2 * c.step := by
        gcongr
        exact abs_roundAway_sub_le _
    _ = c.step / 2 := by ring

/-- A greater reading has no lesser raw byte, inside the range or outside. -/
theorem InRange.scale_mono (h : c.InRange) {greater : Rat} (hle : reading ≤ greater) :
    c.scale reading ≤ c.scale greater := by
  have hquotient : c.quotient reading ≤ c.quotient greater := by
    rw [quotient_eq, quotient_eq]
    have := h.step_pos
    gcongr
  have hround := roundAway_mono hquotient
  rw [scale_eq, scale_eq]
  omega

end Reading

/-- **A reading comes back within one ideal step.** -/
theorem deviation_le_ideal_step (h : derive? low high = .ok c) :
    (1 ≤ c.m ∧ c.m ≤ 511) ∧ (-8 ≤ c.rExp ∧ c.rExp ≤ 7) ∧ (-8 ≤ c.bExp ∧ c.bExp ≤ 7) ∧
    (∀ reading, low ≤ reading → reading ≤ high →
      (0 ≤ roundAway (c.quotient reading) ∧ roundAway (c.quotient reading) ≤ 255) ∧
      (c.scale reading : Int) = roundAway (c.quotient reading) ∧
      |c.decode (c.scale reading) - reading| ≤ (high - low) / 255) ∧
    ∀ reading greater : Rat, reading ≤ greater → c.scale reading ≤ c.scale greater := by
  have hcovers := covers_of_derive? h
  refine ⟨hcovers.inRange.multiplier, hcovers.inRange.rExp, hcovers.inRange.bExp,
    fun reading hlow hhigh => ⟨hcovers.roundAway_bounds hlow hhigh,
      hcovers.scale_eq_roundAway hlow hhigh, ?_⟩, fun _ _ => hcovers.inRange.scale_mono⟩
  have hdeviation := hcovers.abs_decode_scale_sub_le hlow hhigh
  have hfine := hcovers.fine
  linarith

/-- A range whose ends are no decimal fractions: a third of a hundred comes back as 33.166. -/
theorem deviation_le_ideal_step_of_thirds :
    let c : Coefficients := ⟨62, -2, -13334, -1⟩
    (derive? (-40 / 3 : Rat) (1000 / 7)).toOption = some c ∧
      (c.decode (c.scale (100 / 3 : Rat)) : Rat) = 16583 / 500 ∧
      |c.decode (c.scale (100 / 3 : Rat)) - (100 / 3 : Rat)| ≤ (1000 / 7 - -40 / 3) / 255 ∧
      c.scale (100 / 3 : Rat) ≤ c.scale (1000 : Rat) := by
  intro c
  have hfound : (derive? (-40 / 3 : Rat) (1000 / 7)).toOption = some c := by decide +kernel
  have hderive : derive? (-40 / 3 : Rat) (1000 / 7) = .ok c := by
    cases h : derive? (-40 / 3 : Rat) (1000 / 7) with
    | error e =>
      rw [h] at hfound
      cases hfound
    | ok other =>
      rw [h] at hfound
      rw [Option.some.inj hfound]
  obtain ⟨-, -, -, hreading, hmono⟩ := deviation_le_ideal_step hderive
  exact ⟨hfound, by decide +kernel, (hreading (100 / 3) (by norm_num) (by norm_num)).2.2,
    hmono _ _ (by norm_num)⟩

end Coefficients

end EventLog
