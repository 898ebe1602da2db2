import EventLog.Disk.Basic

/-!
# EventLog.Message.Frame

Messages on a connection.  A message is its length, in four bytes with the
highest first, and then its bytes; there are four mebibytes of them at most.

* `read_write_append`: what was written is read back, and what follows it is left.
-/

namespace EventLog

/-- Why a message cannot be read or written. -/
inductive MessageError where
  | timeout
  | connectionClosed
  | tooLarge (size : Nat)
  | invalid
  | io (cause : SystemError)
  deriving DecidableEq, Repr

def MessageError.message : MessageError → String
  | timeout => "timed out"
  | connectionClosed => "connection closed"
  | tooLarge size => "message of " ++ Text.decimal size ++ " bytes exceeds limit"
  | invalid => "invalid message"
  | io cause => "io error: " ++ cause.message

namespace Frame

/-- The most bytes of a message. -/
def sizeLimit : Nat := 4 * 1024 * 1024

/-- The number of bytes of a length. -/
def headerSize : Nat := 4

/-- A length in four bytes. -/
def header (size : Nat) : List UInt8 :=
  [UInt8.ofNat (size / 0x1000000), UInt8.ofNat (size / 0x10000), UInt8.ofNat (size / 0x100),
    UInt8.ofNat size]

/-- The length in four bytes. -/
def sizeOfHeader (a b c d : UInt8) : Nat :=
  a.toNat * 0x1000000 + b.toNat * 0x10000 + c.toNat * 0x100 + d.toNat

/-- The bytes that are sent for a message. -/
def write (message : List UInt8) : Except MessageError (List UInt8) :=
  if sizeLimit < message.length then .error (.tooLarge message.length)
  else .ok (header message.length ++ message)

/-- Reads a message from the bytes that have come, and leaves the others.  A
connection that stays open may still bring what is missing, but not in time. -/
def read (staysOpen : Bool) : List UInt8 → Except MessageError (List UInt8) × List UInt8
  | a :: b :: c :: d :: rest =>
    let size := sizeOfHeader a b c d
    if sizeLimit < size then (.error (.tooLarge size), rest)
    else
      let body := rest.take size
      if body.length = size then (.ok body, rest.drop size)
      else (.error (if staysOpen then .timeout else .io .earlyEnd), [])
  | _ => (.error (if staysOpen then .timeout else .connectionClosed), [])

/-- The length is read back from its four bytes, if it fits them. -/
theorem sizeOfHeader_header {size : Nat} (h : size < 0x100000000) :
    ∃ a b c d, header size = [a, b, c, d] ∧ sizeOfHeader a b c d = size := by
  refine ⟨_, _, _, _, rfl, ?_⟩
  simp only [sizeOfHeader, UInt8.toNat_ofNat']
  omega

/-- What was written is read back, and what follows it is left. -/
theorem read_write_append {message written : List UInt8} (h : write message = .ok written)
    (staysOpen : Bool) (rest : List UInt8) :
    read staysOpen (written ++ rest) = (.ok message, rest) := by
  unfold write at h
  split at h
  · cases h
  · next hle =>
    have hle : message.length ≤ sizeLimit := Nat.le_of_not_lt hle
    have hlt : message.length < 0x100000000 := by simp only [sizeLimit] at hle; omega
    obtain ⟨a, b, c, d, hh, hs⟩ := sizeOfHeader_header hlt
    cases h
    simp [hh, read, hs, Nat.not_lt.mpr hle]

end Frame

end EventLog
