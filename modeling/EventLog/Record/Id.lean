/-!
# EventLog.Record.Id

The sixteen-bit number of a stored record.  Two numbers are set apart: 0 says
that a record has no number of its own, 65535 that there is no such record.
-/

namespace EventLog

/-- The number of a record. -/
structure RecordId where
  number : UInt16
  deriving DecidableEq, Repr

namespace RecordId

/-- The number of a record that was passed on and not stored. -/
def unassigned : RecordId := ⟨0⟩

/-- The answer when no record has the number asked for. -/
def invalid : RecordId := ⟨65535⟩

/-- The lowest number that a record can have. -/
def first : RecordId := ⟨1⟩

/-- The highest number that a record can have. -/
def last : RecordId := ⟨65534⟩

/-- The numbers from 1 to 65534. -/
def IsValid (id : RecordId) : Prop := id ≠ unassigned ∧ id ≠ invalid

instance (id : RecordId) : Decidable id.IsValid := inferInstanceAs (Decidable (_ ∧ _))

def toNat (id : RecordId) : Nat := id.number.toNat

/-- The record number of a natural number below 65536. -/
def ofNat (n : Nat) : RecordId := ⟨UInt16.ofNat n⟩

@[ext] theorem ext_toNat {a b : RecordId} (h : a.toNat = b.toNat) : a = b := by
  cases a; cases b; simp only [toNat] at h; exact congrArg mk (UInt16.toNat_inj.mp h)

theorem toNat_lt (id : RecordId) : id.toNat < 65536 := id.number.toNat_lt

/-- A number is valid exactly if it lies between the first and the last. -/
theorem isValid_iff (id : RecordId) : id.IsValid ↔ 1 ≤ id.toNat ∧ id.toNat ≤ 65534 := by
  have h0 : id = unassigned ↔ id.toNat = 0 :=
    ⟨fun h => by rw [h]; rfl, fun h => ext_toNat (h.trans rfl)⟩
  have h1 : id = invalid ↔ id.toNat = 65535 :=
    ⟨fun h => by rw [h]; rfl, fun h => ext_toNat (h.trans rfl)⟩
  have := id.toNat_lt
  simp only [IsValid, ne_eq, h0, h1]
  omega

@[simp] theorem toNat_ofNat {n : Nat} (h : n < 65536) : (ofNat n).toNat = n := by
  simp only [toNat, ofNat, UInt16.toNat_ofNat', Nat.reducePow]
  omega

@[simp] theorem ofNat_toNat (id : RecordId) : ofNat id.toNat = id :=
  ext_toNat (toNat_ofNat id.toNat_lt)

end RecordId

end EventLog
