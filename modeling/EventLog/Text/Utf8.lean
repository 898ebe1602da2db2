/-!
# EventLog.Text.Utf8

Bytes shown as text, whatever they are.  Where they are no UTF-8, a
replacement character stands for the longest start of a character that is
found, or for a single byte that starts none.
-/

namespace EventLog.Text

/-- The character that stands for bytes that are none. -/
def replacement : Char := Char.ofNat 0xFFFD

/-- What a first byte asks for: how many bytes follow, and the range of the next one. -/
def following? (byte : Nat) : Option (Nat × Nat × Nat) :=
  if 0xC2 ≤ byte ∧ byte ≤ 0xDF then some (1, 0x80, 0xBF)
  else if byte = 0xE0 then some (2, 0xA0, 0xBF)
  else if byte = 0xED then some (2, 0x80, 0x9F)
  else if 0xE1 ≤ byte ∧ byte ≤ 0xEF then some (2, 0x80, 0xBF)
  else if byte = 0xF0 then some (3, 0x90, 0xBF)
  else if 0xF1 ≤ byte ∧ byte ≤ 0xF3 then some (3, 0x80, 0xBF)
  else if byte = 0xF4 then some (3, 0x80, 0x8F)
  else none

/-- The bits of a first byte that belong to the character. -/
def leadBits (byte count : Nat) : Nat := byte % Nat.pow 2 (6 - count)

/-- A character that is being read: its bits, how many bytes are missing, and
the range of the next one. -/
structure Pending where
  bits : Nat
  missing : Nat
  low : Nat
  high : Nat

mutual

/-- Reads bytes from the start of a character. -/
def shown : List UInt8 → List Char
  | [] => []
  | byte :: rest =>
    if byte.toNat < 0x80 then Char.ofNat byte.toNat :: shown rest
    else match following? byte.toNat with
      | none => replacement :: shown rest
      | some (count, low, high) => shownAfter ⟨leadBits byte.toNat count, count, low, high⟩ rest
  termination_by bytes => 2 * bytes.length

/-- Reads bytes in the middle of a character. -/
def shownAfter (p : Pending) : List UInt8 → List Char
  | [] => [replacement]
  | byte :: rest =>
    if p.low ≤ byte.toNat ∧ byte.toNat ≤ p.high then
      let bits := p.bits * 64 + byte.toNat % 64
      if p.missing ≤ 1 then Char.ofNat bits :: shown rest
      else shownAfter ⟨bits, p.missing - 1, 0x80, 0xBF⟩ rest
    else replacement :: shown (byte :: rest)
  termination_by bytes => 2 * bytes.length + 1

end

end EventLog.Text
