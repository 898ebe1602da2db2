/-!
# EventLog.Assertions

Which conditions stand.  A condition is a kind of event at a source; a change
that would repeat its present state is no change.
-/

namespace EventLog

/-- A kind of event at a source. -/
structure Condition where
  source : String
  kind : String
  deriving DecidableEq, Repr

/-- The conditions that stand, each once. -/
structure Assertions where
  standing : List Condition
  nodup : standing.Nodup

namespace Assertions

def none : Assertions := ⟨[], List.nodup_nil⟩

instance : Membership Condition Assertions := ⟨fun a c => c ∈ a.standing⟩

instance (c : Condition) (a : Assertions) : Decidable (c ∈ a) :=
  inferInstanceAs (Decidable (c ∈ a.standing))

/-- Whether a change would alter the state of a condition. -/
def wouldApply (a : Assertions) (c : Condition) (assert : Bool) : Bool :=
  decide (c ∈ a) != assert

/-- Makes a change, and says whether it altered anything. -/
def apply (a : Assertions) (c : Condition) (assert : Bool) : Bool × Assertions :=
  if assert then
    if h : c ∈ a.standing then (false, a)
    else (true, ⟨c :: a.standing, List.nodup_cons.mpr ⟨h, a.nodup⟩⟩)
  else
    if c ∈ a.standing then (true, ⟨a.standing.erase c, a.nodup.erase c⟩) else (false, a)

def size (a : Assertions) : Nat := a.standing.length

def isEmpty (a : Assertions) : Bool := a.standing.isEmpty

/-- The order of conditions in a listing: by source, then by kind. -/
def precedes (x y : Condition) : Bool :=
  x.source < y.source || (x.source == y.source && x.kind ≤ y.kind)

def listing (a : Assertions) : List Condition := a.standing.mergeSort precedes

/-- Behind an assert the condition stands, beside those that stood. -/
theorem mem_apply_of_assert (a : Assertions) (c d : Condition) :
    d ∈ (a.apply c true).2 ↔ d = c ∨ d ∈ a := by
  by_cases h : c ∈ a.standing
  · simp only [apply, h, if_true, dif_pos]
    exact ⟨Or.inr, fun h' => h'.elim (fun e => e ▸ h) id⟩
  · simp only [apply, h, if_true]
    exact List.mem_cons

/-- Behind a deassert all stand that stood, but for the condition. -/
theorem mem_apply_of_deassert (a : Assertions) (c d : Condition) :
    d ∈ (a.apply c false).2 ↔ d ≠ c ∧ d ∈ a := by
  by_cases h : c ∈ a.standing
  · simp only [apply, h, if_true]
    exact a.nodup.mem_erase_iff
  · simp only [apply, h]
    exact ⟨fun h' => ⟨fun e => h (e ▸ h'), h'⟩, And.right⟩

/-- A change is made exactly if it would alter something. -/
theorem apply_fst (a : Assertions) (c : Condition) (assert : Bool) :
    (a.apply c assert).1 = a.wouldApply c assert := by
  have hm : (c ∈ a) ↔ c ∈ a.standing := Iff.rfl
  by_cases h : c ∈ a.standing <;> cases assert <;> simp [apply, wouldApply, hm, h]

end Assertions

end EventLog
