import EventLog.Monitor.Basic

/-!
# EventLog.Proofs.Assertions

Changes that were made one after the other, from where nothing stood.

* `Reached`: each of the changes altered the state of its condition;
* `Reached.alternates`: the directions of one condition come and go by turns,
  and the condition stands exactly if the last one came;
* `Reached.size_add`: what stands is what came less what went.
-/

namespace EventLog

/-! ## Directions by turns -/

/-- Directions that come and go by turns: the first comes. -/
def Alternates (directions : List Bool) : Prop :=
  ∀ (i : Nat) (h : i < directions.length), directions[i] = decide (i % 2 = 0)

theorem alternates_nil : Alternates [] := fun _ h => absurd h (Nat.not_lt_zero _)

/-- The last direction comes exactly if their number is odd. -/
theorem Alternates.getLast?_eq {directions : List Bool} (h : Alternates directions) :
    directions.getLast? = some true ↔ directions.length % 2 = 1 := by
  cases hlength : directions.length with
  | zero => simp [List.length_eq_zero_iff.mp hlength]
  | succ n =>
    have hn : n < directions.length := by omega
    rw [List.getLast?_eq_getElem?, hlength, Nat.add_sub_cancel, List.getElem?_eq_getElem hn,
      h n hn, Option.some.injEq, decide_eq_true_iff]
    omega

/-- Directions go on alternating if the next one differs from the last, or is an assert
at the start. -/
theorem Alternates.concat {directions : List Bool} (h : Alternates directions) {next : Bool}
    (hnext : next = decide (directions.length % 2 = 0)) : Alternates (directions ++ [next]) := by
  intro i hi
  rw [List.length_append, List.length_singleton] at hi
  rcases Nat.lt_or_ge i directions.length with hlt | hge
  · rw [List.getElem_append_left hlt, h i hlt]
  · obtain rfl : i = directions.length := by omega
    rw [List.getElem_concat_length rfl, hnext]

/-- The directions of the changes of one condition. -/
def directionsOf (condition : Condition) (changes : List Change) : List Bool :=
  (changes.filter (·.condition = condition)).map (·.assert)

theorem directionsOf_concat_self (changes : List Change) (change : Change) :
    directionsOf change.condition (changes ++ [change])
      = directionsOf change.condition changes ++ [change.assert] := by
  simp [directionsOf]

theorem directionsOf_concat_of_ne {condition : Condition} (changes : List Change) {change : Change}
    (h : change.condition ≠ condition) :
    directionsOf condition (changes ++ [change]) = directionsOf condition changes := by
  simp [directionsOf, h]

/-- Changes of other conditions can be left out. -/
theorem directionsOf_filter {condition : Condition} {changes : List Change}
    {keep : Change → Bool} (h : ∀ change, change.condition = condition → keep change = true) :
    directionsOf condition (changes.filter keep) = directionsOf condition changes := by
  rw [directionsOf, List.filter_filter, directionsOf]
  congr 2
  funext change
  by_cases hc : change.condition = condition
  · simp [hc, h change hc]
  · simp [hc]

namespace Assertions

/-! ## One change -/

theorem not_mem_none (c : Condition) : c ∉ Assertions.none := List.not_mem_nil

/-- A change alters something if it asserts what does not stand or deasserts what stands, and
only then. -/
theorem wouldApply_eq_true {a : Assertions} {c : Condition} {assert : Bool} :
    a.wouldApply c assert = true ↔ (c ∈ a ↔ assert = false) := by
  rw [wouldApply, bne_iff_ne]
  cases assert <;> simp

/-- A change leaves its condition in the state that it says, and all others alone. -/
theorem mem_apply {a : Assertions} {c d : Condition} {assert : Bool} :
    d ∈ (a.apply c assert).2 ↔ if d = c then assert = true else d ∈ a := by
  cases assert with
  | true => rw [mem_apply_of_assert]; split <;> simp_all
  | false => rw [mem_apply_of_deassert]; split <;> simp_all

/-- A change that alters something makes one condition more or one less. -/
theorem size_apply_of_wouldApply {a : Assertions} {c : Condition} {assert : Bool}
    (h : a.wouldApply c assert = true) :
    (a.apply c assert).2.size + (if assert then 0 else 1) = a.size + (if assert then 1 else 0) := by
  have hmem : c ∈ a.standing ↔ assert = false := wouldApply_eq_true.mp h
  cases assert with
  | true =>
    have hc : c ∉ a.standing := by simpa using hmem
    simp [apply, size, hc]
  | false =>
    have hc : c ∈ a.standing := by simpa using hmem
    have hpos := List.length_pos_of_mem hc
    simp only [apply, size, hc, if_true, Bool.false_eq_true, if_false, List.length_erase_of_mem hc]
    omega

/-! ## Many changes -/

/-- Changes lead from where nothing stands to what stands now, and each altered
the state of its condition. -/
inductive Reached : List Change → Assertions → Prop where
  | nil : Reached [] .none
  | concat {changes : List Change} {a : Assertions} (change : Change) :
    Reached changes a → a.wouldApply change.condition change.assert = true →
      Reached (changes ++ [change]) (a.apply change.condition change.assert).2

variable {changes : List Change} {a : Assertions}

/-- What stands, and what went again, is what came. -/
theorem Reached.size_add (h : Reached changes a) :
    a.size + changes.countP (!·.assert) = changes.countP (·.assert) := by
  induction h with
  | nil => rfl
  | concat change _ hwould ih =>
    have hsize := size_apply_of_wouldApply hwould
    rw [List.countP_append, List.countP_append, List.countP_singleton, List.countP_singleton]
    cases hassert : change.assert <;> simp [hassert] at hsize ⊢ <;> omega

/-- **A condition comes and goes by turns**, and stands exactly if it came last. -/
theorem Reached.alternates (h : Reached changes a) (condition : Condition) :
    Alternates (directionsOf condition changes) ∧
      (condition ∈ a ↔ (directionsOf condition changes).getLast? = some true) := by
  induction h with
  | nil => exact ⟨alternates_nil, by simp [directionsOf, not_mem_none]⟩
  | @concat changes a change _ hwould ih =>
    obtain ⟨halternates, hmem⟩ := ih
    -- The number of directions so far says whether the condition stands, and so what comes next.
    by_cases hc : change.condition = condition
    · subst hc
      have hnext : change.assert
          = decide ((directionsOf change.condition changes).length % 2 = 0) := by
        have hstood := wouldApply_eq_true.mp hwould
        rw [hmem, halternates.getLast?_eq] at hstood
        cases hassert : change.assert with
        | true => simpa [hassert] using hstood
        | false => simpa [hassert] using hstood
      rw [directionsOf_concat_self]
      refine ⟨halternates.concat hnext, ?_⟩
      rw [mem_apply, if_pos rfl, List.getLast?_concat, Option.some.injEq]
    · rw [directionsOf_concat_of_ne changes hc, mem_apply, if_neg (Ne.symm hc)]
      exact ⟨halternates, hmem⟩

end Assertions

end EventLog
