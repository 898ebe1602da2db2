/-!
# EventLog.Text.Numeral

Unsigned whole numbers as text.  A numeral is read in a base up to sixteen,
with letters in either case, any number of leading zeros and at most one
leading plus sign; blanks, underscores and base marks are no part of it.

* `number?_toDigits`: what `Nat.toDigits` writes is read back;
* `digits?_replicate_zero`: zeros in front change nothing.
-/

namespace EventLog.Text

/-- The least number that sixty-four bits do not hold. -/
def wordLimit : Nat := 0x10000000000000000

/-- The least number that sixty-four bits do not hold beside a sign. -/
def signedLimit : Nat := 0x8000000000000000

/-- The value of a digit, letters in either case. -/
def digitValue (c : Char) : Option Nat :=
  if '0' ≤ c ∧ c ≤ '9' then some (c.toNat - '0'.toNat)
  else if 'a' ≤ c ∧ c ≤ 'f' then some (c.toNat - 'a'.toNat + 10)
  else if 'A' ≤ c ∧ c ≤ 'F' then some (c.toNat - 'A'.toNat + 10)
  else none

def digit? (base : Nat) (c : Char) : Option Nat :=
  (digitValue c).filter (· < base)

/-- The digits' value behind an earlier value. -/
def digits? (base : Nat) (value : Nat) : List Char → Option Nat
  | [] => some value
  | c :: rest =>
    match digit? base c with
    | some d => digits? base (value * base + d) rest
    | none => none

/-- The value of a text of at least one digit. -/
def number? (base : Nat) : List Char → Option Nat
  | [] => none
  | c :: rest => digits? base 0 (c :: rest)

/-- A text without its leading plus sign. -/
def unsigned : List Char → List Char
  | '+' :: rest => rest
  | text => text

/-- The value of a numeral below the limit; a plus sign may lead it. -/
def numeral? (base limit : Nat) (text : List Char) : Option Nat :=
  (number? base (unsigned text)).filter (· < limit)

/-- Zeros in front of a text that is shorter than the width. -/
def zeroPadded (width : Nat) (text : List Char) : List Char :=
  List.replicate (width - text.length) '0' ++ text

/-- A number in decimal, with zeros in front up to the width. -/
def padded (width n : Nat) : List Char :=
  zeroPadded width (Nat.toDigits 10 n)

def capitalDigit (value : Nat) : Char :=
  if value < 10 then Char.ofNat ('0'.toNat + value) else Char.ofNat ('A'.toNat + (value - 10))

/-- A number in capital hexadecimal digits, exactly as many as the width. -/
def capitalHex : Nat → Nat → List Char
  | 0, _ => []
  | width + 1, n => capitalHex width (n / 16) ++ [capitalDigit (n % 16)]

/-- A text with blanks behind it up to the width. -/
def leftAligned (width : Nat) (text : String) : String :=
  text ++ String.ofList (List.replicate (width - text.length) ' ')

def decimal (n : Nat) : String := String.ofList (Nat.toDigits 10 n)

/-- A number in hexadecimal digits, letters in lower case. -/
def lowerHex (n : Nat) : String := String.ofList (Nat.toDigits 16 n)

/-! ## Reading what was written -/

theorem digits?_append (base value : Nat) (front rest : List Char) :
    digits? base value (front ++ rest) = (digits? base value front).bind (digits? base · rest) := by
  induction front generalizing value with
  | nil => rfl
  | cons c front ih =>
    simp only [List.cons_append, digits?]
    cases digit? base c <;> simp [ih]

@[simp] theorem digits?_singleton (base value : Nat) (c : Char) :
    digits? base value [c] = (digit? base c).map (value * base + ·) := by
  simp only [digits?]; cases digit? base c <;> rfl

theorem digit?_digitChar {base d : Nat} (hb : base ≤ 16) (hd : d < base) :
    digit? base (Nat.digitChar d) = some d := by
  have h : ∀ d : Fin 16, digitValue (Nat.digitChar d) = some d.val := by decide
  simp [digit?, h ⟨d, by omega⟩, hd]

theorem digit?_capitalDigit {d : Nat} (hd : d < 16) : digit? 16 (capitalDigit d) = some d := by
  have h : ∀ d : Fin 16, digitValue (capitalDigit d) = some d.val := by decide
  simp [digit?, h ⟨d, hd⟩, hd]

theorem digits?_toDigits {base : Nat} (h1 : 1 < base) (hb : base ≤ 16) (n : Nat) :
    digits? base 0 (Nat.toDigits base n) = some n := by
  induction n using Nat.strongRecOn with
  | ind n ih =>
    rw [Nat.toDigits_eq_if h1]
    split
    · next h => simp [digit?_digitChar hb h]
    · next h =>
      have hlt : n / base < n := Nat.div_lt_self (by omega) h1
      rw [digits?_append, ih _ hlt]
      simp [digit?_digitChar hb (Nat.mod_lt n (by omega)), Nat.div_add_mod']

theorem toDigits_ne_nil {base : Nat} (h1 : 1 < base) (n : Nat) : Nat.toDigits base n ≠ [] := by
  rw [Nat.toDigits_eq_if h1]; split <;> simp

/-- The digits of a number are read back. -/
theorem number?_toDigits {base : Nat} (h1 : 1 < base) (hb : base ≤ 16) (n : Nat) :
    number? base (Nat.toDigits base n) = some n := by
  have h := digits?_toDigits h1 hb n
  revert h
  cases hd : Nat.toDigits base n with
  | nil => exact absurd hd (toDigits_ne_nil h1 n)
  | cons c rest => exact id

theorem digits?_replicate_zero (base count : Nat) (hb : 0 < base) (text : List Char) :
    digits? base 0 (List.replicate count '0' ++ text) = digits? base 0 text := by
  induction count with
  | zero => rfl
  | succ count ih =>
    have : digit? base '0' = some 0 := by
      have : digitValue '0' = some 0 := by decide
      simp [digit?, this, hb]
    simp [List.replicate_succ, digits?, this, ih]

@[simp] theorem length_capitalHex (width n : Nat) : (capitalHex width n).length = width := by
  induction width generalizing n with
  | zero => rfl
  | succ width ih => simp [capitalHex, ih]

/-- Capital hexadecimal digits are read back, as far as the width holds the number. -/
theorem digits?_capitalHex {width n : Nat} (h : n < Nat.pow 16 width) :
    digits? 16 0 (capitalHex width n) = some n := by
  induction width generalizing n with
  | zero =>
    have : n = 0 := by simpa using h
    simp [capitalHex, digits?, this]
  | succ width ih =>
    have hd : n / 16 < Nat.pow 16 width := by
      have : Nat.pow 16 (width + 1) = Nat.pow 16 width * 16 := rfl
      omega
    simp [capitalHex, digits?_append, ih hd, digit?_capitalDigit (Nat.mod_lt n (by omega)),
      Nat.div_add_mod']

end EventLog.Text
