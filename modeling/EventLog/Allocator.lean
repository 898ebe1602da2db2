import EventLog.Record.Id

/-!
# EventLog.Allocator

Numbers for records.  A counter runs over the valid numbers and starts again
behind the last one.  Numbers given back are handed out again, the one given
back first before the others, and only then does the counter move.
-/

namespace EventLog

/-- A counter and the numbers that were given back, oldest first. -/
structure Allocator where
  counter : RecordId
  free : List RecordId
  deriving DecidableEq, Repr

namespace Allocator

/-- The allocator that hands out 1 first. -/
def fresh : Allocator := ⟨.invalid, []⟩

/-- The highest valid number of a list, or `RecordId.invalid` if there is none. -/
def highest (ids : List RecordId) : RecordId :=
  (ids.filter (·.IsValid)).foldl
    (fun best id => if best = .invalid ∨ best.toNat < id.toNat then id else best) .invalid

/-- The allocator of a log that holds the given numbers: it goes on behind the
highest of them, and nothing is free. -/
def resume (present : List RecordId) : Allocator := ⟨highest present, []⟩

/-- The number behind another one; 1 follows the last. -/
def successor (id : RecordId) : RecordId :=
  if 65534 ≤ id.toNat then .first else .ofNat (id.toNat + 1)

/-- The next number to hand out, and the allocator afterwards. -/
def allocate (a : Allocator) : RecordId × Allocator :=
  match a.free with
  | id :: rest => (id, { a with free := rest })
  | [] => (successor a.counter, { a with counter := successor a.counter })

/-- Takes a number back.  An invalid one, and one that is free already, is ignored. -/
def release (a : Allocator) (id : RecordId) : Bool × Allocator :=
  if id.IsValid ∧ id ∉ a.free then (true, { a with free := a.free ++ [id] }) else (false, a)

/-- The counter, once it has moved. -/
def lastIssued? (a : Allocator) : Option RecordId :=
  if a.counter.IsValid then some a.counter else none

def allocateMany : Nat → Allocator → List RecordId × Allocator
  | 0, a => ([], a)
  | count + 1, a =>
    let (id, a) := a.allocate
    let (ids, a) := allocateMany count a
    (id :: ids, a)

/-- The counter never comes to a number that no record can have. -/
theorem successor_isValid (id : RecordId) : (successor id).IsValid := by
  unfold successor
  split
  · decide
  · rw [RecordId.isValid_iff, RecordId.toNat_ofNat (by omega)]; omega

end Allocator

end EventLog
