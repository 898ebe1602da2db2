import EventLog.Text.Numeral
import EventLog.Time.Calendar

/-!
# EventLog.Time.Timestamp

Points in time, and how they are written:

    2026-01-01T00:00:00.250+00:00

The fraction has none, three, six or nine digits, the fewest that are exact.
The zone is always that of UTC, written `+00:00` in a log and `Z` in messages.
A leap second is the sixtieth second of its minute.
-/

namespace EventLog

/-- A point in time: seconds since 1970-01-01T00:00:00Z, and nanoseconds.  The
nanoseconds of a leap second go on from the second before it. -/
structure Timestamp where
  second : Int
  nano : Nat
  nano_lt : nano < 2000000000
  nano_lt_of_mod : second % 60 ≠ 59 → nano < 1000000000
  deriving DecidableEq, Repr

namespace Timestamp

def nanosPerSecond : Nat := 1000000000

/-- The start of the count of seconds. -/
def epoch : Timestamp := ⟨0, 0, by omega, by omega⟩

/-- The point in time of a count of seconds and nanoseconds. -/
def ofUnix? (second : Int) (nano : Nat) : Option Timestamp :=
  if h : nano < 2000000000 ∧ (second % 60 ≠ 59 → nano < 1000000000) then
    some ⟨second, nano, h.1, h.2⟩
  else none

/-- The point in time of a count of seconds and of nanoseconds within the second. -/
def ofParts (second : Int) (nano : Nat) : Timestamp :=
  ⟨second, nano % 1000000000, by omega, by omega⟩

/-- The point in time so many whole seconds and nanoseconds later.  Time that
ends within the leap second it began in stays there. -/
def later (t : Timestamp) (seconds nanos : Nat) : Timestamp :=
  let total := t.nano + nanos % nanosPerSecond
  let whole : Int := seconds + (nanos / nanosPerSecond : Nat)
  if leap : nanosPerSecond ≤ t.nano then
    if h : whole = 0 ∧ total < 2 * nanosPerSecond then
      ⟨t.second, total, h.2, by
        have := t.nano_lt_of_mod
        have : nanosPerSecond = 1000000000 := rfl
        omega⟩
    else
      let rest := total - nanosPerSecond
      ofParts (t.second + whole + (rest / nanosPerSecond : Nat)) rest
  else ofParts (t.second + whole + (total / nanosPerSecond : Nat)) total

/-- The same time on a clock that knows no leap seconds. -/
def smoothed (t : Timestamp) : Timestamp :=
  ofParts (t.second + (t.nano / nanosPerSecond : Nat)) t.nano

def date (t : Timestamp) : Date := Date.ofDays (t.second / 86400)

def secondOfDay (t : Timestamp) : Nat := (t.second % 86400).toNat

/-- A year: four digits from 0 to 9999, a sign and at least four digits otherwise. -/
def yearText (year : Int) : List Char :=
  if 0 ≤ year ∧ year ≤ 9999 then Text.padded 4 year.toNat
  else if year < 0 then '-' :: Text.padded 4 year.natAbs
  else '+' :: Text.padded 4 year.natAbs

def dateText (d : Date) : List Char :=
  yearText d.year ++ '-' :: Text.padded 2 d.month ++ '-' :: Text.padded 2 d.day

/-- The fraction of a second in the fewest digits of none, three, six and nine. -/
def fractionText (nano : Nat) : List Char :=
  if nano = 0 then []
  else if nano % 1000000 = 0 then '.' :: Text.padded 3 (nano / 1000000)
  else if nano % 1000 = 0 then '.' :: Text.padded 6 (nano / 1000)
  else '.' :: Text.padded 9 nano

/-- The day and the time, with the given fraction of the second. -/
def clockText (t : Timestamp) (fraction : List Char) : List Char :=
  let s := t.secondOfDay
  dateText t.date ++ 'T' :: Text.padded 2 (s / 3600) ++ ':' :: Text.padded 2 (s / 60 % 60)
    ++ ':' :: Text.padded 2 (s % 60 + t.nano / nanosPerSecond) ++ fraction

/-- A point in time with the fewest digits, without the zone. -/
def exactText (t : Timestamp) : List Char :=
  t.clockText (fractionText (t.nano % nanosPerSecond))

/-- A point in time as a log has it. -/
def logText (t : Timestamp) : List Char := t.exactText ++ ['+', '0', '0', ':', '0', '0']

def messageText (t : Timestamp) : String := String.ofList (t.exactText ++ ['Z'])

/-- A point in time with exactly six digits of the fraction. -/
def microText (t : Timestamp) : String :=
  String.ofList (t.clockText ('.' :: Text.padded 6 (t.nano % nanosPerSecond / 1000)) ++ ['Z'])

end Timestamp

end EventLog
