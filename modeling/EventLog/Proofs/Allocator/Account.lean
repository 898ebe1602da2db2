import EventLog.Proofs.Allocator
import Mathlib.Data.List.Induction

/-!
# EventLog.Proofs.Allocator.Account

Which numbers an allocator hands out, over any run of what is done with it.

* `allocateMany_of_nil`: while none is free, the numbers follow each other on the
  cycle of the valid ones (`onCycle`);
* `Account`: which numbers are out and which came back, kept beside the allocator
  and without looking into it;
* `Account.Sound.perform`: what every operation keeps of the two;
* `issues_apart`: no number that is out is handed out before the counter has come
  round, and those that came back are handed out in their order.
-/

namespace EventLog.Allocator

variable {a : Allocator} {id : RecordId}

/-! ## The cycle of numbers -/

/-- The number at a position on the cycle of the valid numbers, where 1 stands at 0. -/
def onCycle (position : Nat) : RecordId := .ofNat (position % 65534 + 1)

@[simp] theorem toNat_onCycle (position : Nat) :
    (onCycle position).toNat = position % 65534 + 1 :=
  RecordId.toNat_ofNat (by omega)

/-- Two positions have one number exactly if they are whole cycles apart. -/
theorem onCycle_eq_iff {position other : Nat} :
    onCycle position = onCycle other ↔ position % 65534 = other % 65534 := by
  constructor
  · intro h
    have := congrArg RecordId.toNat h
    simp only [toNat_onCycle] at this
    omega
  · intro h
    rw [onCycle, onCycle, h]

theorem rank_le (id : RecordId) : id.rank ≤ 65534 := by
  unfold RecordId.rank
  split
  · next hv => exact ((RecordId.isValid_iff id).mp hv).2
  · omega

/-- The counter goes on along the cycle. -/
theorem successor_eq_onCycle (id : RecordId) : successor id = onCycle id.rank := by
  refine RecordId.ext_toNat ?_
  rw [toNat_onCycle]
  rcases Nat.lt_or_ge id.rank 65534 with hlt | hge
  · rw [toNat_successor hlt, Nat.mod_eq_of_lt hlt]
  · have hlast : id.rank = 65534 := Nat.le_antisymm (rank_le id) hge
    rw [successor_of_rank_eq hlast, hlast]
    rfl

/-- While none is free, the numbers that are handed out follow each other on the cycle. -/
theorem allocateMany_of_nil (h : a.free = []) (n : Nat) :
    (allocateMany n a).1 = (List.range n).map fun i => onCycle (a.counter.rank + i) := by
  induction n generalizing a with
  | zero => rfl
  | succ n ih =>
    have hnext : (successor a.counter).rank = a.counter.rank % 65534 + 1 := by
      rw [rank_successor, successor_eq_onCycle, toNat_onCycle]
    have hrest := ih (a := { a with counter := successor a.counter }) h
    rw [allocateMany, allocate_of_nil h, List.range_succ_eq_map, List.map_cons, List.map_map]
    simp only [hrest, hnext, List.cons.injEq]
    refine ⟨successor_eq_onCycle _, List.map_congr_left fun i _ => onCycle_eq_iff.mpr ?_⟩
    simp only [Nat.succ_eq_add_one]
    omega

/-- A cycle hands out no number twice. -/
theorem nodup_allocateMany (h : a.free = []) {n : Nat} (hn : n ≤ 65534) :
    (allocateMany n a).1.Nodup := by
  rw [allocateMany_of_nil h]
  refine List.Nodup.map_on (fun i hi j hj hij => ?_) List.nodup_range
  rw [List.mem_range] at hi hj
  have := onCycle_eq_iff.mp hij
  omega

/-- Every valid number stands somewhere on the cycle, counted from anywhere. -/
theorem exists_onCycle (hid : id.IsValid) {start : Nat} (hstart : start ≤ 65534) :
    ∃ i < 65534, onCycle (start + i) = id := by
  obtain ⟨hfirst, hlast⟩ := (RecordId.isValid_iff id).mp hid
  refine ⟨(id.toNat + 65533 + 65534 - start) % 65534, Nat.mod_lt _ (by omega),
    RecordId.ext_toNat ?_⟩
  rw [toNat_onCycle]
  omega

/-- Once round the cycle, every valid number is handed out exactly once. -/
theorem count_allocateMany (h : a.free = []) (hid : id.IsValid) :
    (allocateMany 65534 a).1.count id = 1 := by
  refine List.count_eq_one_of_mem (nodup_allocateMany h (Nat.le_refl _)) ?_
  obtain ⟨i, hi, hcycle⟩ := exists_onCycle hid (rank_le a.counter)
  rw [allocateMany_of_nil h]
  exact List.mem_map.mpr ⟨i, List.mem_range.mpr hi, hcycle⟩

/-- The free numbers are handed out one behind the other, and the counter stays. -/
theorem allocateMany_free (a : Allocator) :
    allocateMany a.free.length a = (a.free, ⟨a.counter, []⟩) := by
  obtain ⟨counter, free⟩ := a
  induction free with
  | nil => rfl
  | cons id rest ih =>
    rw [List.length_cons, allocateMany, allocate_of_cons rfl]
    simp only [ih]

/-! ## Runs -/

/-- What is done with an allocator. -/
inductive Op where
  | resume (present : List RecordId)
  | allocate
  | release (id : RecordId)
  | reset
  deriving DecidableEq, Repr

/-- The next number makes the counter go from the last number to the first. -/
def Wraps (a : Allocator) : Prop := a.counter = .last ∧ a.allocate.2.counter = .first

instance (a : Allocator) : Decidable a.Wraps := inferInstanceAs (Decidable (_ ∧ _))

/-- An allocator, and what is known of its numbers since it was set up or reset.

* `outstanding`: those that were present or were handed out, and did not come back;
* `returned`: the valid ones that came back and were not handed out again, in the
  order in which they came;
* `regular`: only outstanding numbers came back, and the counter did not go from
  the last number to the first. -/
structure Account where
  allocator : Allocator
  outstanding : List RecordId
  returned : List RecordId
  regular : Bool

namespace Account

/-- The account of a new allocator. -/
def start : Account := ⟨fresh, [], [], true⟩

/-- Carries an operation out and keeps the account. -/
def perform (account : Account) : Op → Account
  | .resume present => ⟨Allocator.resume present, present, [], true⟩
  | .allocate =>
    let (id, allocator) := account.allocator.allocate
    ⟨allocator, id :: account.outstanding, account.returned.erase id,
      account.regular && !decide account.allocator.Wraps⟩
  | .release id =>
    ⟨(account.allocator.release id).2, account.outstanding.filter (· ≠ id),
      if id.IsValid then account.returned ++ [id] else account.returned,
      account.regular && decide (id ∈ account.outstanding)⟩
  | .reset => start

/-- The account of a new allocator behind a run. -/
def after (ops : List Op) : Account := ops.foldl perform start

/-- What the account says is so: the free numbers are those that came back, none of
them is outstanding, and the counter has passed all of them. -/
structure Regular (account : Account) : Prop where
  free : account.allocator.free = account.returned
  apart : account.allocator.Apart (· ∈ account.outstanding)
  ahead : account.allocator.Ahead (· ∈ account.outstanding)

/-- What is so in every run, and what is so in a regular one. -/
structure Sound (account : Account) : Prop where
  proper : account.allocator.Proper
  once : account.allocator.free.Nodup
  regular : account.regular = true → account.Regular

variable {account : Account}

theorem sound_start : start.Sound where
  proper := fun _ hid => absurd hid List.not_mem_nil
  once := List.nodup_nil
  regular _ := ⟨rfl, apart_resume _ [], show (resume []).Ahead _ from
    ahead_resume fun _ hid => absurd hid List.not_mem_nil⟩

/-- Starting again from the numbers of a log keeps the account sound. -/
theorem sound_resume (present : List RecordId) :
    (account.perform (.resume present)).Sound where
  proper := proper_resume present
  once := List.nodup_nil
  regular _ := ⟨rfl, apart_resume _ present, ahead_resume fun _ hid => hid⟩

/-- A counter at its end has passed every number. -/
theorem ahead_of_last {held : RecordId → Prop} (h : a.counter = .last) : a.Ahead held := by
  intro id _
  rw [h]
  exact rank_le id

/-- A number that is handed out is outstanding, and no longer among those that came back. -/
theorem Regular.allocate (h : account.Regular) (hwraps : ¬ account.allocator.Wraps) :
    (account.perform .allocate).Regular := by
  have hmore : ∀ id, id ∈ account.allocator.allocate.1 :: account.outstanding →
      id ∈ account.outstanding ∨ id = account.allocator.allocate.1 :=
    fun id hid => (List.mem_cons.mp hid).symm
  refine ⟨?_, h.apart.allocate hmore, ?_⟩
  · have hfree := h.free
    cases hreturned : account.returned with
    | nil =>
      rw [hreturned] at hfree
      simp [perform, allocate_of_nil hfree, hfree, hreturned]
    | cons id rest =>
      rw [hreturned] at hfree
      simp [perform, allocate_of_cons hfree, hreturned]
  · by_cases hlast : account.allocator.counter = .last
    · -- At its end the counter only stays where it is, because a number is free.
      refine ahead_of_last ?_
      cases hfree : account.allocator.free with
      | nil =>
        refine absurd ⟨hlast, ?_⟩ hwraps
        rw [allocate_of_nil hfree, hlast]
        rfl
      | cons id rest => simpa [perform, allocate_of_cons hfree] using hlast
    · exact h.ahead.allocate hlast hmore

/-- An outstanding number that comes back stands behind the others that came back. -/
theorem Regular.release (h : account.Regular) (hid : id ∈ account.outstanding) :
    (account.perform (.release id)).Regular := by
  have hless : ∀ other, other ∈ account.outstanding.filter (· ≠ id) →
      other ∈ account.outstanding ∧ other ≠ id := fun other hother => by simpa using hother
  have hnot : id ∉ account.allocator.free := fun hfree => h.apart.not_held id hfree hid
  refine ⟨?_, h.apart.release hless, h.ahead.release hid fun other hother => (hless other hother).1⟩
  by_cases hvalid : id.IsValid
  · simp [perform, release_of_not_mem hvalid hnot, hvalid, h.free]
  · simp [perform, Allocator.release, hvalid, h.free]

/-- Handing out a number keeps the account sound. -/
theorem Sound.allocate (h : account.Sound) : (account.perform .allocate).Sound where
  proper := h.proper.allocate.2
  once := by
    have happart : account.allocator.Apart fun _ => False := ⟨h.once, fun _ _ => id⟩
    exact (happart.allocate fun _ => False.elim).once
  regular hregular := by
    simp only [perform, Bool.and_eq_true, Bool.not_eq_true', decide_eq_false_iff_not] at hregular
    exact (h.regular hregular.1).allocate hregular.2

/-- Taking a number back keeps the account sound, whichever it is. -/
theorem Sound.release (h : account.Sound) (id : RecordId) :
    (account.perform (.release id)).Sound where
  proper := h.proper.release id
  once := by
    have happart : account.allocator.Apart fun _ => False := ⟨h.once, fun _ _ => False.elim⟩
    exact (happart.release fun _ => False.elim).once
  regular hregular := by
    simp only [perform, Bool.and_eq_true, decide_eq_true_eq] at hregular
    exact (h.regular hregular.1).release hregular.2

/-- Every operation keeps what the account says. -/
theorem Sound.perform (h : account.Sound) (op : Op) : (account.perform op).Sound := by
  cases op with
  | resume present => exact sound_resume present
  | allocate => exact h.allocate
  | release id => exact h.release id
  | reset => exact sound_start

/-- The account is sound behind every run. -/
theorem sound_after (ops : List Op) : (after ops).Sound := by
  induction ops using List.reverseRecOn with
  | nil => exact sound_start
  | append_singleton ops op ih =>
    rw [after, List.foldl_append]
    exact ih.perform op

/-- Only a counter that comes round hands out an outstanding number. -/
theorem Regular.not_mem_outstanding (h : account.Regular) (hwraps : ¬ account.allocator.Wraps) :
    account.allocator.allocate.1 ∉ account.outstanding := by
  intro hmem
  obtain ⟨hfree, hlast⟩ := h.apart.of_held_allocate hmem
  refine hwraps ⟨hlast h.ahead, ?_⟩
  rw [allocate_of_nil hfree, hlast h.ahead]
  rfl

end Account

/-! ## What is handed out -/

/-- The counter goes on by one without leaving sixteen bits, or starts again at 1. -/
theorem toNat_allocate_of_nil (h : a.free = []) :
    a.allocate.1.toNat = if 65534 ≤ a.counter.toNat then 1 else a.counter.toNat + 1 := by
  rw [allocate_of_nil h, successor]
  split
  · rfl
  · exact RecordId.toNat_ofNat (by omega)

/-- **No number is handed out twice before the counter comes round.**  In every run
the free numbers are valid and each is free once, and the next number is valid.  As
long as only outstanding numbers came back and the counter did not come round, the
free numbers are those that came back, none is outstanding, they are handed out in
their order before the counter moves, and the next number is not outstanding unless
the counter comes round for it.  While none is free, up to 65534 numbers in a row
are distinct, and 65534 are all the valid ones. -/
theorem issues_apart (ops : List Op) :
    let account := Account.after ops
    let a := account.allocator
    (a.free.Nodup ∧ ∀ id ∈ a.free, id.IsValid) ∧
    (a.allocate.1.IsValid ∧ (a.free = [] →
      a.allocate.1.toNat = if 65534 ≤ a.counter.toNat then 1 else a.counter.toNat + 1)) ∧
    (account.regular = true →
      a.free = account.returned ∧
      (∀ id ∈ a.free, id ∉ account.outstanding) ∧
      (∀ id ∈ account.outstanding, (a.release id).1 = true ↔ id.IsValid) ∧
      (¬ a.Wraps → a.allocate.1 ∉ account.outstanding) ∧
      allocateMany account.returned.length a = (account.returned, ⟨a.counter, []⟩)) ∧
    ∀ b : Allocator, b.free = [] →
      (∀ n ≤ 65534, (allocateMany n b).1.length = n ∧ (allocateMany n b).1.Nodup) ∧
      ∀ id, id.IsValid → (allocateMany 65534 b).1.count id = 1 := by
  intro account a
  have hsound : account.Sound := Account.sound_after ops
  refine ⟨⟨hsound.once, hsound.proper⟩, ⟨hsound.proper.allocate.1, toNat_allocate_of_nil⟩,
    fun hregular => ?_, fun b hfree => ⟨fun n hn => ⟨?_, nodup_allocateMany hfree hn⟩,
      fun id hid => count_allocateMany hfree hid⟩⟩
  · have h := hsound.regular hregular
    refine ⟨h.free, h.apart.not_held, fun id hid => ?_, h.not_mem_outstanding, ?_⟩
    · have hnot : id ∉ a.free := fun hmem => h.apart.not_held id hmem hid
      by_cases hvalid : id.IsValid <;> simp [release, hvalid, hnot]
    · rw [← h.free]
      exact allocateMany_free a
  · rw [allocateMany_of_nil hfree, List.length_map, List.length_range]

/-- A log with the numbers 3 and 9 and an invalid one hands out 10, takes 9 and 3 back,
hands out 9 and takes 10 back: next come 3 and 10.  A counter just before its end
comes round. -/
theorem issues_apart_of_returned :
    let ops : List Op := [.resume [⟨9⟩, ⟨65535⟩, ⟨3⟩], .allocate, .release ⟨9⟩, .release ⟨3⟩,
      .allocate, .release ⟨10⟩]
    let account := Account.after ops
    account.regular = true ∧ ¬ account.allocator.Wraps ∧
      account.allocator.allocate.1 ∉ account.outstanding ∧
      allocateMany 2 account.allocator = ([⟨3⟩, ⟨10⟩], ⟨⟨10⟩, []⟩) ∧
      (allocateMany 3 ⟨⟨65533⟩, []⟩).1.Nodup ∧
      (allocateMany 65534 ⟨⟨65533⟩, []⟩).1.count ⟨7⟩ = 1 := by
  intro ops account
  have hregular : account.regular = true := by decide
  have hwraps : ¬ account.allocator.Wraps := by decide
  obtain ⟨-, -, h, hcycle⟩ := issues_apart ops
  obtain ⟨-, -, -, hnext, hmany⟩ := h hregular
  obtain ⟨hmany', hall⟩ := hcycle ⟨⟨65533⟩, []⟩ rfl
  exact ⟨hregular, hwraps, hnext hwraps, hmany, (hmany' 3 (by decide)).2, hall ⟨7⟩ (by decide)⟩

end EventLog.Allocator
