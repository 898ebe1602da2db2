import EventLog.Time.Reader
import EventLog.Toml.Basic

/-!
# EventLog.Toml.Number

Numbers and points in time of a document.

* Underscores may stand between digits.  A decimal number has no leading zero.
* A whole number fits sixty-four bits with its sign; with a base in front it
  has no sign of its own.
* A number with a fraction or an exponent is not above all doubles.
* A day exists in the calendar; a second may be the sixtieth.
-/

namespace EventLog.Toml

/-! ## Numbers -/

/-- Digits in front of a text, without the underscores between them. -/
def takeDigits? (base : Nat) : List Char → Option (List Char × List Char)
  | [] => none
  | c :: rest =>
    if (Text.digit? base c).isNone then none
    else
      match rest with
      | '_' :: more => (takeDigits? base more).map fun (digits, rest) => (c :: digits, rest)
      | d :: more =>
        if (Text.digit? base d).isSome then
          (takeDigits? base (d :: more)).map fun (digits, rest) => (c :: digits, rest)
        else some ([c], d :: more)
      | [] => some ([c], [])

/-- The digits of a decimal number; a zero in front is all of it. -/
def takeWhole? : List Char → Option (List Char × List Char)
  | '0' :: rest => some (['0'], rest)
  | text => takeDigits? 10 text

/-- The sign in front of a text: whether it is a minus. -/
def takeSign : List Char → Bool × List Char
  | '+' :: rest => (false, rest)
  | '-' :: rest => (true, rest)
  | text => (false, text)

def takeFraction? : List Char → Option (Option (List Char) × List Char)
  | '.' :: rest => (takeDigits? 10 rest).map fun (digits, rest) => (some digits, rest)
  | text => some (none, text)

def takeSigned? (text : List Char) : Option (Int × List Char) := do
  let (negative, rest) := takeSign text
  let (digits, rest) ← takeDigits? 10 rest
  let n : Int := (← Text.number? 10 digits : Nat)
  return (if negative then -n else n, rest)

def takeExponent? : List Char → Option (Option Int × List Char)
  | 'e' :: rest | 'E' :: rest => (takeSigned? rest).map fun (n, rest) => (some n, rest)
  | text => some (none, text)

/-- The whole number of digits, if sixty-four bits hold it with its sign. -/
def integer? (base : Nat) (negative : Bool) (digits : List Char) : Option Toml := do
  let magnitude ← Text.number? base digits
  if negative then
    if magnitude ≤ Text.signedLimit then some (.integer (-(magnitude : Int))) else none
  else if magnitude < Text.signedLimit then some (.integer magnitude) else none

/-- The least number that rounds to none of the doubles. -/
def doubleLimit : Nat := Nat.pow 2 1024 - Nat.pow 2 970

/-- The most digits that a double has in front of its point. -/
def doubleDigits : Nat := 309

/-- Whether `digits · 10 ^ exponent` is not above all doubles. -/
def isDouble (digits : List Char) (exponent : Int) : Bool :=
  let significant := digits.dropWhile (· = '0')
  let value := (Text.number? 10 significant).getD 0
  let places := (significant.length : Int) + exponent
  if significant.isEmpty || places < doubleDigits then true
  else if doubleDigits < places then false
  else
    match exponent with
    | .ofNat e => value * Nat.pow 10 e < doubleLimit
    | .negSucc e => value < doubleLimit * Nat.pow 10 (e + 1)

/-- What was read of a text, by what is left of it. -/
def written (text rest : List Char) : String :=
  String.ofList (text.take (text.length - rest.length))

def takeDecimal? (negative : Bool) (text : List Char) : Option (Toml × List Char) := do
  let (whole, rest) ← takeWhole? text
  let (fraction, rest) ← takeFraction? rest
  let (exponent, rest) ← takeExponent? rest
  match fraction, exponent with
  | none, none => return (← integer? 10 negative whole, rest)
  | _, _ =>
    let places := fraction.getD []
    if negative || isDouble (whole ++ places) (exponent.getD 0 - places.length) then
      return (.fractional (written text rest), rest)
    else none

def takeBased? (base : Nat) (text : List Char) : Option (Toml × List Char) := do
  let (digits, rest) ← takeDigits? base text
  return (← integer? base false digits, rest)

def takeNumber? : List Char → Option (Toml × List Char)
  | '0' :: 'x' :: rest => takeBased? 16 rest
  | '0' :: 'o' :: rest => takeBased? 8 rest
  | '0' :: 'b' :: rest => takeBased? 2 rest
  | text =>
    match takeSign text with
    | (_, 'i' :: 'n' :: 'f' :: rest) => some (.fractional (written text rest), rest)
    | (_, 'n' :: 'a' :: 'n' :: rest) => some (.fractional (written text rest), rest)
    | (negative, text) => takeDecimal? negative text

/-! ## Points in time -/

def startsTime : List Char → Bool
  | a :: b :: ':' :: _ => a.isDigit && b.isDigit
  | _ => false

def startsDate : List Char → Bool
  | a :: b :: c :: d :: '-' :: _ => [a, b, c, d].all (·.isDigit)
  | _ => false

def skipTime? (text : List Char) : Option (List Char) := do
  let (hour, rest) ← Timestamp.takeNumber? 2 2 text
  let (minute, rest) ← Timestamp.takeNumber? 2 2 (← Timestamp.expect? [':'] rest)
  let (second, rest) ← Timestamp.takeNumber? 2 2 (← Timestamp.expect? [':'] rest)
  let (_, rest) ← Timestamp.takeFraction? rest
  if hour < 24 ∧ minute < 60 ∧ second ≤ 60 then some rest else none

def skipZone? : List Char → Option (List Char)
  | 'Z' :: rest | 'z' :: rest => some rest
  | '+' :: rest | '-' :: rest => do
    let (hours, rest) ← Timestamp.takeNumber? 2 2 rest
    let (minutes, rest) ← Timestamp.takeNumber? 2 2 (← Timestamp.expect? [':'] rest)
    if hours < 24 ∧ minutes < 60 then some rest else none
  | text => some text

/-- The text behind a day, and behind a time of day if one follows. -/
def skipDate? (text : List Char) : Option (List Char) := do
  let (year, rest) ← Timestamp.takeNumber? 4 4 text
  let (month, rest) ← Timestamp.takeNumber? 2 2 (← Timestamp.expect? ['-'] rest)
  let (day, rest) ← Timestamp.takeNumber? 2 2 (← Timestamp.expect? ['-'] rest)
  if Date.IsValid ⟨year, month, day⟩ then
    match Timestamp.expect? ['T', 't', ' '] rest with
    | some time => if startsTime time then skipZone? (← skipTime? time) else some rest
    | none => some rest
  else none

/-- A number or a point in time in front of a text. -/
def takeScalar? (text : List Char) : Option (Toml × List Char) :=
  let moment (rest : List Char) : Toml × List Char := (.moment (written text rest), rest)
  if startsDate text then (skipDate? text).map moment
  else if startsTime text then (skipTime? text).map moment
  else takeNumber? text

end EventLog.Toml
