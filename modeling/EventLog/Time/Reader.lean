import EventLog.Text.Blank
import EventLog.Time.Timestamp

/-!
# EventLog.Time.Reader

Reading points in time.  A log holds the strict form: four digits of the year,
two of every other field, a fraction of at least one digit if there is one,
and a zone.  Messages may also leave leading zeros out, sign the year, put
blanks in front of numbers and separators and name the zone `UTC`.

Digits of a fraction behind the ninth are passed over.  A zone is `Z`, or
hours and minutes with a sign; the time is moved to UTC.
-/

namespace EventLog.Timestamp

/-- A number of at least so many and at most so many digits. -/
def takeNumber? (least most : Nat) (text : List Char) : Option (Nat × List Char) :=
  let digits := (text.take most).takeWhile (·.isDigit)
  if least ≤ digits.length then
    (Text.digits? 10 0 digits).map fun n => (n, text.drop digits.length)
  else none

def expect? (allowed : List Char) : List Char → Option (List Char)
  | c :: rest => if c ∈ allowed then some rest else none
  | [] => none

/-- The nanoseconds of a fraction, if there is one. -/
def takeFraction? : List Char → Option (Nat × List Char)
  | '.' :: text =>
    (takeNumber? 1 9 text).map fun (n, rest) =>
      (n * Nat.pow 10 (9 - (text.length - rest.length)), rest.dropWhile (·.isDigit))
  | text => some (0, text)

/-- A zone: the seconds that it is ahead of UTC.  Between its hours and its
minutes stands what `separator` passes over. -/
def takeZone? (separator : List Char → Option (List Char)) :
    List Char → Option (Int × List Char)
  | [] => none
  | c :: rest =>
    if c = 'Z' ∨ c = 'z' then some (0, rest)
    else if c = '+' ∨ c = '-' ∨ c = '−' then do
      let (hours, rest) ← takeNumber? 2 2 rest
      let (minutes, rest) ← takeNumber? 2 2 (← separator rest)
      let ahead : Int := hours * 3600 + minutes * 60
      if minutes < 60 ∧ ahead < 86400 then
        return (if c = '+' then ahead else -ahead, rest)
      else none
    else none

/-- The latest second that a point in time can have. -/
def latestSecond : Int := 8210266876799

/-- The earliest second that a point in time can have. -/
def earliestSecond : Int := -8334601228800

/-- The point in time of a day, a time of day and a zone.  A sixtieth second is a leap second. -/
def ofClock? (date : Date) (hour minute second nano : Nat) (ahead : Int) : Option Timestamp :=
  if date.IsValid ∧ hour < 24 ∧ minute < 60 ∧ second ≤ 60 then
    let (second, nano) := if second = 60 then (59, nano + nanosPerSecond) else (second, nano)
    let unix := date.toDays * 86400 + ((hour * 3600 + minute * 60 + second : Nat) : Int) - ahead
    if earliestSecond ≤ unix ∧ unix ≤ latestSecond then ofUnix? unix nano else none
  else none

/-- Reads the strict form. -/
def ofText? (text : List Char) : Option Timestamp := do
  let (year, text) ← takeNumber? 4 4 text
  let (month, text) ← takeNumber? 2 2 (← expect? ['-'] text)
  let (day, text) ← takeNumber? 2 2 (← expect? ['-'] text)
  let (hour, text) ← takeNumber? 2 2 (← expect? ['T', 't', ' '] text)
  let (minute, text) ← takeNumber? 2 2 (← expect? [':'] text)
  let (second, text) ← takeNumber? 2 2 (← expect? [':'] text)
  let (nano, text) ← takeFraction? text
  let (ahead, text) ← takeZone? (expect? [':']) text
  if text.isEmpty then ofClock? ⟨year, month, day⟩ hour minute second nano ahead else none

/-- A number behind blanks. -/
def takeLoose? (most : Nat) (text : List Char) : Option (Nat × List Char) :=
  takeNumber? 1 most (Text.trimmedLeft text)

/-- A year behind blanks: at most four digits, or any number of digits behind a sign. -/
def takeYear? (text : List Char) : Option (Int × List Char) :=
  match Text.trimmedLeft text with
  | '-' :: rest => (takeNumber? 1 rest.length rest).map fun (n, rest) => (-(n : Int), rest)
  | '+' :: rest => (takeNumber? 1 rest.length rest).map fun (n, rest) => ((n : Int), rest)
  | text => (takeNumber? 1 4 text).map fun (n, rest) => ((n : Int), rest)

/-- A zone behind blanks, by sign or by the name of UTC. -/
def takeNamedZone? (text : List Char) : Option (Int × List Char) :=
  match Text.trimmedLeft text with
  | u :: t :: c :: rest =>
    if (u = 'U' ∨ u = 'u') ∧ (t = 'T' ∨ t = 't') ∧ (c = 'C' ∨ c = 'c') then some (0, rest)
    else takeZone? between (u :: t :: c :: rest)
  | text => takeZone? between text
where
  /-- Colons and blanks, as many as there are. -/
  between (text : List Char) : Option (List Char) :=
    some (text.dropWhile fun c => c = ':' || Text.isBlank c)

def ofMessage? (text : List Char) : Option Timestamp := do
  let (year, text) ← takeYear? text
  let (month, text) ← takeLoose? 2 (← expect? ['-'] (Text.trimmedLeft text))
  let (day, text) ← takeLoose? 2 (← expect? ['-'] (Text.trimmedLeft text))
  let (hour, text) ← takeLoose? 2 (← expect? ['T', 't', ' '] text)
  let (minute, text) ← takeLoose? 2 (← expect? [':'] (Text.trimmedLeft text))
  let (second, text) ← takeLoose? 2 (← expect? [':'] (Text.trimmedLeft text))
  let (nano, text) ← takeFraction? text
  let (ahead, text) ← takeNamedZone? text
  if (Text.trimmedLeft text).isEmpty then ofClock? ⟨year, month, day⟩ hour minute second nano ahead
  else none

end EventLog.Timestamp
