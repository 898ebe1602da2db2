/-!
# EventLog.Time.Calendar

Days of the Gregorian calendar, extended to all years.  Days are counted from
1970-01-01.  Years are counted from March, so the day that a leap year adds is
the last one of its year; four hundred years have 146097 days.
-/

namespace EventLog

/-- A day of the calendar. -/
structure Date where
  year : Int
  month : Nat
  day : Nat
  deriving DecidableEq, Repr

namespace Date

/-- Whether a year has a day more. -/
def isLeap (year : Int) : Bool :=
  year % 4 == 0 && (year % 100 != 0 || year % 400 == 0)

def daysInMonth (year : Int) (month : Nat) : Nat :=
  match month with
  | 4 | 6 | 9 | 11 => 30
  | 2 => if isLeap year then 29 else 28
  | _ => 31

/-- Whether the month and the day exist in the year. -/
def IsValid (d : Date) : Prop :=
  1 ≤ d.month ∧ d.month ≤ 12 ∧ 1 ≤ d.day ∧ d.day ≤ daysInMonth d.year d.month

instance (d : Date) : Decidable d.IsValid := inferInstanceAs (Decidable (_ ∧ _))

/-- The days of four hundred years. -/
def cycleDays : Int := 146097

/-- The days from the start of year 0, counted from March, to 1970-01-01. -/
def epochDays : Int := 719468

/-- The number of a day, counted from 1970-01-01. -/
def toDays (d : Date) : Int :=
  let year := if d.month ≤ 2 then d.year - 1 else d.year
  let month : Int := (((d.month + 9) % 12 : Nat) : Int)
  let cycle := year / 400
  let yearOfCycle := year % 400
  let dayOfYear := (153 * month + 2) / 5 + (d.day : Int) - 1
  cycle * cycleDays + (yearOfCycle * 365 + yearOfCycle / 4 - yearOfCycle / 100 + dayOfYear)
    - epochDays

/-- The day with a number, counted from 1970-01-01. -/
def ofDays (days : Int) : Date :=
  let cycle := (days + epochDays) / cycleDays
  let dayOfCycle := (days + epochDays) % cycleDays
  let yearOfCycle :=
    (dayOfCycle - dayOfCycle / 1460 + dayOfCycle / 36524 - dayOfCycle / 146096) / 365
  let dayOfYear := dayOfCycle - (365 * yearOfCycle + yearOfCycle / 4 - yearOfCycle / 100)
  let month := (5 * dayOfYear + 2) / 153
  let year := yearOfCycle + cycle * 400
  { year := if month < 10 then year else year + 1
    month := (if month < 10 then month + 3 else month - 9).toNat
    day := (dayOfYear - (153 * month + 2) / 5 + 1).toNat }

end Date

end EventLog
