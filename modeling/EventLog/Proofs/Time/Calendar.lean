import EventLog.Time.Calendar
import Mathlib.Tactic.IntervalCases

/-!
# EventLog.Proofs.Time.Calendar

The count of days and the calendar agree: every number of a day names a day
that exists, and that day has the number again.

Four hundred years are cut into centuries, centuries into spans of four years,
and spans into years (`DayOfCycle`).  Only the last year of a span, and of the
last span only in the last century, has a day more.
-/

namespace EventLog.Date

/-- Day `d` of four hundred years is day `r` of year `s` of span `q` of century `e`. -/
structure DayOfCycle (d e q s r : Int) : Prop where
  century : 0 ≤ e ∧ e ≤ 3
  span : 0 ≤ q ∧ q ≤ 24
  year : 0 ≤ s ∧ s ≤ 3
  rest : 0 ≤ r ∧ r ≤ 365
  leap : r = 365 → s = 3 ∧ (q = 24 → e = 3)
  sum : d = 36524 * e + 1461 * q + 365 * s + r

/-- Every day of four hundred years has its place. -/
theorem exists_dayOfCycle {d : Int} (h : 0 ≤ d ∧ d < 146097) :
    ∃ e q s r : Int, DayOfCycle d e q s r := by
  by_cases hd : d = 146096
  · exact ⟨3, 24, 3, 365, by constructor <;> omega⟩
  · generalize hc : d % 36524 = c
    by_cases hs : c % 1461 = 1460
    · exact ⟨d / 36524, c / 1461, 3, 365, by constructor <;> omega⟩
    · exact ⟨d / 36524, c / 1461, c % 1461 / 365, c % 1461 % 365, by constructor <;> omega⟩

/-- The year of a day of four hundred years. -/
theorem DayOfCycle.yearOfCycle {d e q s r : Int} (h : DayOfCycle d e q s r) :
    (d - d / 1460 + d / 36524 - d / 146096) / 365 = 100 * e + 4 * q + s := by
  obtain ⟨he, hq, hs, hr, hl, hd⟩ := h
  have h1 : d / 36524 = if d = 146096 then 4 else e := by split <;> omega
  have h2 : d / 146096 = if d = 146096 then 1 else 0 := by split <;> omega
  have h3 : d / 1460 = 25 * e + q + if 1460 ≤ 24 * e + q + 365 * s + r then 1 else 0 := by
    split <;> omega
  rw [h1, h2, h3]
  split <;> split <;> omega

/-- The day of the year of a day of four hundred years. -/
theorem DayOfCycle.dayOfYear {d e q s r : Int} (h : DayOfCycle d e q s r) :
    d - (365 * (100 * e + 4 * q + s) + (100 * e + 4 * q + s) / 4 - (100 * e + 4 * q + s) / 100)
      = r := by
  obtain ⟨he, hq, hs, hr, -, hd⟩ := h
  have h4 : (100 * e + 4 * q + s) / 4 = 25 * e + q := by omega
  have h100 : (100 * e + 4 * q + s) / 100 = e := by omega
  omega

/-- The day with a number, from the place that it has in its four hundred years. -/
theorem ofDays_eq {days e q s r : Int} (h : DayOfCycle ((days + epochDays) % cycleDays) e q s r) :
    ofDays days =
      let year := 100 * e + 4 * q + s + (days + epochDays) / cycleDays * 400
      let month := (5 * r + 2) / 153
      { year := if month < 10 then year else year + 1
        month := (if month < 10 then month + 3 else month - 9).toNat
        day := (r - (153 * month + 2) / 5 + 1).toNat } := by
  simp only [ofDays, h.yearOfCycle, h.dayOfYear]

/-- Every number of a day has its place in four hundred years. -/
theorem exists_dayOfCycle_mod (days : Int) :
    ∃ e q s r : Int, DayOfCycle ((days + epochDays) % cycleDays) e q s r := by
  exact exists_dayOfCycle (by simp only [cycleDays]; omega)

/-- The day with a number has that number. -/
theorem toDays_ofDays (days : Int) : (ofDays days).toDays = days := by
  obtain ⟨e, q, s, r, h⟩ := exists_dayOfCycle_mod days
  rw [ofDays_eq h]
  obtain ⟨he, hq, hs, hr, -, hd⟩ := h
  generalize hm : (5 * r + 2) / 153 = m
  generalize hy : 100 * e + 4 * q + s = y
  have hm' : 0 ≤ m ∧ m ≤ 11 := by omega
  have h4 : y / 4 = 25 * e + q := by omega
  have h100 : y / 100 = e := by omega
  simp only [toDays]
  generalize hk : (days + epochDays) / cycleDays = k at *
  have hyear : (if (if m < 10 then m + 3 else m - 9).toNat ≤ 2
      then (if m < 10 then y + k * 400 else y + k * 400 + 1) - 1
      else if m < 10 then y + k * 400 else y + k * 400 + 1) = y + k * 400 := by
    split <;> split <;> omega
  have hmonth : ((((if m < 10 then m + 3 else m - 9).toNat + 9) % 12 : Nat) : Int) = m := by
    split <;> omega
  have hday : (((r - (153 * m + 2) / 5 + 1).toNat : Nat) : Int) = r - (153 * m + 2) / 5 + 1 := by
    omega
  have hcycle : (y + k * 400) / 400 = k := by omega
  have hmod : (y + k * 400) % 400 = y := by omega
  have hdays : days + epochDays = k * cycleDays + (days + epochDays) % cycleDays := by
    rw [← hk, Int.mul_comm, Int.mul_ediv_add_emod]
  rw [hyear, hmonth, hday, hcycle, hmod]
  omega

/-- The February that ends the last year of a span falls in a leap year. -/
theorem isLeap_succ {e q k : Int} (hq : 0 ≤ q ∧ q ≤ 24) (hl : q = 24 → e = 3) :
    isLeap (100 * e + 4 * q + 3 + k * 400 + 1) = true := by
  simp only [isLeap, Bool.and_eq_true, beq_iff_eq, Bool.or_eq_true, bne_iff_ne, ne_eq]
  by_cases h : q = 24
  · have := hl h; omega
  · omega

/-- The day with a number exists. -/
theorem isValid_ofDays (days : Int) : (ofDays days).IsValid := by
  obtain ⟨e, q, s, r, h⟩ := exists_dayOfCycle_mod days
  rw [ofDays_eq h]
  obtain ⟨he, hq, hs, hr, hl, -⟩ := h
  generalize hm : (5 * r + 2) / 153 = m
  have hm' : 0 ≤ m ∧ m ≤ 11 := by omega
  simp only [IsValid]
  refine ⟨by split <;> omega, by split <;> omega, by omega, ?_⟩
  obtain ⟨hm0, hm11⟩ := hm'
  by_cases hlast : r = 365
  · have hm : m = 11 := by omega
    obtain ⟨hs', hq'⟩ := hl hlast
    subst hm hlast hs'
    simp [daysInMonth, isLeap_succ hq hq']
  · interval_cases m <;> simp [daysInMonth] <;> omega

end EventLog.Date
