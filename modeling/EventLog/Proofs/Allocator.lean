import EventLog.Allocator
import Mathlib.Data.List.Nodup

/-!
# EventLog.Proofs.Allocator

Which numbers an allocator hands out.  The counter is known by its rank: the
number that it stands at, and 0 before the first.

* `toNat_successor`: below the last number, the counter goes on by one;
* `rank_highest`: an allocator that resumes stands at the highest valid number;
* `Apart.of_held_allocate`: a number that is held is handed out only if none is
  free and the counter has come to its end.
-/

namespace EventLog

/-- A valid number, or 0. -/
def RecordId.rank (id : RecordId) : Nat := if id.IsValid then id.toNat else 0

theorem RecordId.rank_of_isValid {id : RecordId} (h : id.IsValid) : id.rank = id.toNat := if_pos h

/-- The last number alone has the highest rank. -/
theorem RecordId.eq_last_of_le_rank {id : RecordId} (h : 65534 ≤ id.rank) : id = .last := by
  unfold rank at h
  split at h
  · next hv =>
    refine ext_toNat ?_
    have hlast : last.toNat = 65534 := rfl
    have := (isValid_iff id).mp hv
    omega
  · omega

namespace Allocator

/-- Below the last number, the counter goes on by one. -/
theorem toNat_successor {id : RecordId} (h : id.rank < 65534) :
    (successor id).toNat = id.rank + 1 := by
  unfold successor
  by_cases hv : id.IsValid
  · rw [RecordId.rank_of_isValid hv] at h ⊢
    rw [if_neg (by omega), RecordId.toNat_ofNat (by omega)]
  · have hcases : id = .unassigned ∨ id = .invalid := by
      unfold RecordId.IsValid at hv
      simpa only [ne_eq, Decidable.not_and_iff_not_or_not, Decidable.not_not] using hv
    rcases hcases with rfl | rfl <;> rfl

/-- Behind the last number, the counter starts again. -/
theorem successor_of_rank_eq {id : RecordId} (h : id.rank = 65534) : successor id = .first := by
  unfold RecordId.rank at h
  split at h
  · exact if_pos (Nat.le_of_eq h.symm)
  · omega

theorem rank_successor (id : RecordId) : (successor id).rank = (successor id).toNat :=
  RecordId.rank_of_isValid (successor_isValid id)

/-! ## Handing out -/

/-- A number that was given back is handed out first. -/
theorem allocate_of_cons {a : Allocator} {id : RecordId} {rest : List RecordId}
    (h : a.free = id :: rest) : a.allocate = (id, { a with free := rest }) := by
  simp [allocate, h]

/-- Otherwise the counter goes on. -/
theorem allocate_of_nil {a : Allocator} (h : a.free = []) :
    a.allocate = (successor a.counter, { a with counter := successor a.counter }) := by
  simp [allocate, h]

/-- A valid number that is not free is put behind those that are. -/
theorem release_of_not_mem {a : Allocator} {id : RecordId} (hv : id.IsValid) (h : id ∉ a.free) :
    a.release id = (true, { a with free := a.free ++ [id] }) := if_pos ⟨hv, h⟩

/-- A number that is taken back stands behind the free ones, or changes nothing. -/
theorem release_cases (a : Allocator) (id : RecordId) :
    (a.release id).2 = a ∨
      id.IsValid ∧ id ∉ a.free ∧ (a.release id).2 = { a with free := a.free ++ [id] } := by
  unfold release
  split
  · next h => exact .inr ⟨h.1, h.2, rfl⟩
  · exact .inl rfl

/-- Only valid numbers can be had again. -/
def Proper (a : Allocator) : Prop := ∀ id ∈ a.free, id.IsValid

/-- Handing out a number gives a valid one, and keeps the allocator proper. -/
theorem Proper.allocate {a : Allocator} (h : a.Proper) :
    a.allocate.1.IsValid ∧ a.allocate.2.Proper := by
  cases hfree : a.free with
  | nil =>
    rw [allocate_of_nil hfree]
    exact ⟨successor_isValid _, h⟩
  | cons id rest =>
    rw [allocate_of_cons hfree]
    rw [Proper, hfree, List.forall_mem_cons] at h
    exact h

/-- Taking a number back keeps the allocator proper. -/
theorem Proper.release {a : Allocator} (h : a.Proper) (id : RecordId) :
    (a.release id).2.Proper := by
  rcases a.release_cases id with hsame | ⟨hvalid, -, hmore⟩
  · rwa [hsame]
  · rw [hmore]
    exact List.forall_mem_append.mpr ⟨h, List.forall_mem_singleton.mpr hvalid⟩

theorem proper_resume (present : List RecordId) : (resume present).Proper :=
  fun _ hid => absurd hid List.not_mem_nil

/-! ## Resuming -/

/-- The search for the highest number finds one of the list, or what it began with. -/
theorem rank_foldl_best (ids : List RecordId) (hids : ∀ id ∈ ids, id.IsValid) (best : RecordId)
    (hbest : best = .invalid ∨ best.IsValid) :
    let found := ids.foldl
      (fun best id => if best = .invalid ∨ best.toNat < id.toNat then id else best) best
    found.rank = ids.foldl (fun most id => max most id.rank) best.rank ∧
      (found = .invalid ∨ found.IsValid) := by
  induction ids generalizing best with
  | nil => exact ⟨rfl, hbest⟩
  | cons id ids ih =>
    have hid := hids id List.mem_cons_self
    have hrest := fun other hother => hids other (List.mem_cons_of_mem id hother)
    have hrank : id.rank = id.toNat := RecordId.rank_of_isValid hid
    simp only [List.foldl_cons]
    split
    · next hless =>
      have hmax : max best.rank id.rank = id.rank := by
        rcases hless with rfl | hless
        · exact Nat.zero_max _
        · have : best.rank ≤ best.toNat := by
            unfold RecordId.rank
            split <;> omega
          omega
      rw [hmax]
      exact ih hrest id (.inr hid)
    · next hless =>
      rw [not_or] at hless
      have hvalid := hbest.resolve_left hless.1
      have hmax : max best.rank id.rank = best.rank := by
        rw [RecordId.rank_of_isValid hvalid, hrank]
        omega
      rw [hmax]
      exact ih hrest best hbest

/-- Invalid numbers count for nothing in the search for the highest. -/
theorem foldl_rank_filter (ids : List RecordId) (most : Nat) :
    (ids.filter (·.IsValid)).foldl (fun most id => max most id.rank) most
      = ids.foldl (fun most id => max most id.rank) most := by
  induction ids generalizing most with
  | nil => rfl
  | cons id ids ih =>
    by_cases h : id.IsValid
    · rw [List.filter_cons_of_pos (by simpa using h), List.foldl_cons, List.foldl_cons, ih]
    · have hzero : id.rank = 0 := if_neg h
      rw [List.filter_cons_of_neg (by simpa using h), List.foldl_cons, hzero, Nat.max_zero, ih]

/-- An allocator that resumes stands at the highest valid number. -/
theorem rank_highest (ids : List RecordId) :
    (highest ids).rank = ids.foldl (fun most id => max most id.rank) 0 := by
  have h := (rank_foldl_best (ids.filter (·.IsValid)) (by simp) .invalid (.inl rfl)).1
  rw [foldl_rank_filter] at h
  exact h

theorem le_foldl_rank (ids : List RecordId) (most : Nat) :
    most ≤ ids.foldl (fun most id => max most id.rank) most := by
  induction ids generalizing most with
  | nil => exact Nat.le_refl most
  | cons id ids ih => exact Nat.le_trans (Nat.le_max_left _ _) (ih _)

/-- No number is higher than the one that an allocator resumes at. -/
theorem rank_le_highest {ids : List RecordId} {id : RecordId} (h : id ∈ ids) :
    id.rank ≤ (highest ids).rank := by
  rw [rank_highest]
  generalize 0 = most
  induction ids generalizing most with
  | nil => simp at h
  | cons first ids ih =>
    rcases List.mem_cons.mp h with rfl | h
    · exact Nat.le_trans (Nat.le_max_right _ _) (le_foldl_rank ids _)
    · exact ih h _

/-! ## Numbers that are held -/

variable {a : Allocator} {held held' : RecordId → Prop}

/-- No number is free twice, and none that is held is free. -/
structure Apart (held : RecordId → Prop) (a : Allocator) : Prop where
  once : a.free.Nodup
  not_held : ∀ id ∈ a.free, ¬ held id

/-- The counter has passed every number that is held or free. -/
def Ahead (held : RecordId → Prop) (a : Allocator) : Prop :=
  ∀ id, held id ∨ id ∈ a.free → id.rank ≤ a.counter.rank

theorem rank_lt_of_ne_last {id : RecordId} (h : id ≠ .last) : id.rank < 65534 := by
  by_contra hle
  exact h (RecordId.eq_last_of_le_rank (by omega))

/-- A held number is handed out only if none is free and the counter has come to its end. -/
theorem Apart.of_held_allocate (h : a.Apart held) (hheld : held a.allocate.1) :
    a.free = [] ∧ (a.Ahead held → a.counter = .last) := by
  cases hfree : a.free with
  | cons id rest =>
    rw [allocate_of_cons hfree] at hheld
    exact absurd hheld (h.not_held id (by simp [hfree]))
  | nil =>
    refine ⟨rfl, fun hahead => ?_⟩
    rw [allocate_of_nil hfree] at hheld
    by_contra hlast
    have hle := hahead _ (.inl hheld)
    rw [rank_successor, toNat_successor (rank_lt_of_ne_last hlast)] at hle
    omega

/-- Handing out a number keeps free numbers apart from those that are held. -/
theorem Apart.allocate (h : a.Apart held)
    (hmore : ∀ id, held' id → held id ∨ id = a.allocate.1) : a.allocate.2.Apart held' := by
  cases hfree : a.free with
  | nil =>
    rw [allocate_of_nil hfree]
    exact ⟨h.once, fun id hid => absurd (hfree ▸ hid) List.not_mem_nil⟩
  | cons id rest =>
    obtain ⟨honce, hnot⟩ := h
    rw [hfree] at honce hnot
    rw [allocate_of_cons hfree] at hmore ⊢
    refine ⟨honce.of_cons, fun other hother hheld => ?_⟩
    rcases hmore other hheld with hheld | rfl
    · exact hnot other (List.mem_cons_of_mem id hother) hheld
    · exact (List.nodup_cons.mp honce).1 hother

/-- As long as the counter has not come to its end, handing out a number keeps it ahead of all. -/
theorem Ahead.allocate (h : a.Ahead held) (hlast : a.counter ≠ .last)
    (hmore : ∀ id, held' id → held id ∨ id = a.allocate.1) : a.allocate.2.Ahead held' := by
  cases hfree : a.free with
  | nil =>
    rw [allocate_of_nil hfree] at hmore ⊢
    have hnext : (successor a.counter).rank = a.counter.rank + 1 := by
      rw [rank_successor, toNat_successor (rank_lt_of_ne_last hlast)]
    rintro id (hid | hid)
    · rcases hmore id hid with hid | rfl
      · have := h id (.inl hid)
        simp only [hnext]
        omega
      · exact Nat.le_refl _
    · exact absurd (hfree ▸ hid) List.not_mem_nil
  | cons id rest =>
    rw [allocate_of_cons hfree] at hmore ⊢
    rintro other (hother | hother)
    · rcases hmore other hother with hother | rfl
      · exact h other (.inl hother)
      · exact h other (.inr (by simp [hfree]))
    · exact h other (.inr (by simp [hfree, hother]))

/-- A number that is no longer held can be taken back. -/
theorem Apart.release (h : a.Apart held) {id : RecordId}
    (hless : ∀ other, held' other → held other ∧ other ≠ id) : (a.release id).2.Apart held' := by
  have hkept : a.Apart held' :=
    ⟨h.once, fun other hother hheld => h.not_held other hother (hless other hheld).1⟩
  rcases a.release_cases id with hsame | ⟨-, hnot, hmore⟩
  · rwa [hsame]
  · rw [hmore]
    refine ⟨List.nodup_append.mpr ⟨h.once, List.nodup_singleton id, fun other hother new hnew => ?_⟩,
      List.forall_mem_append.mpr ⟨hkept.not_held, List.forall_mem_singleton.mpr fun hheld =>
        (hless id hheld).2 rfl⟩⟩
    rintro rfl
    rw [List.mem_singleton] at hnew
    exact hnot (hnew ▸ hother)

/-- Taking a number back leaves the counter ahead of those that are held. -/
theorem Ahead.release (h : a.Ahead held) {id : RecordId} (hid : held id)
    (hless : ∀ other, held' other → held other) : (a.release id).2.Ahead held' := by
  rcases a.release_cases id with hsame | ⟨-, -, hmore⟩
  · rw [hsame]
    exact fun other hother => h other (hother.imp_left (hless other))
  · rw [hmore]
    rintro other (hother | hother)
    · exact h other (.inl (hless other hother))
    · rcases List.mem_append.mp hother with hother | hother
      · exact h other (.inr hother)
      · rw [List.mem_singleton] at hother
        exact h other (.inl (hother ▸ hid))

/-- No number is free at the start, so none that is free is held. -/
theorem apart_resume (held : RecordId → Prop) (present : List RecordId) :
    (resume present).Apart held := ⟨List.nodup_nil, fun _ hid => absurd hid List.not_mem_nil⟩

/-- An allocator that resumes has passed the numbers that it resumes from. -/
theorem ahead_resume {present : List RecordId} (h : ∀ id, held id → id ∈ present) :
    (resume present).Ahead held := by
  rintro id (hid | hid)
  · exact rank_le_highest (h id hid)
  · exact absurd hid List.not_mem_nil

end Allocator

end EventLog
