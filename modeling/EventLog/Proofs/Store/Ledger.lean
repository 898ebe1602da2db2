import EventLog.Proofs.Allocator
import EventLog.Proofs.Store.Retention

/-!
# EventLog.Proofs.Store.Ledger

A log whose file is not limited, as an ordered list of records.

A ledger has the records that are stored, in the order in which they were added,
and the numbers that were freed since the log was opened or cleared.  It says
what every operation answers (`Ledger.perform`).

* `Ledger.Sound`: no number comes twice, and none is out of range;
* `log_refines_ledger`: a log answers and holds what the ledger says.
-/

namespace EventLog

open Disk (StandsAt)
open Step

/-- The records of a log, the oldest first, and the numbers that were given back
and can be had again, the one given back first in front. -/
structure Ledger where
  records : List StoredRecord
  freed : List RecordId

/-- The highest of some numbers; 0 if there is none. -/
def highestOf (ids : List RecordId) : Nat := ids.foldl (fun most id => max most id.toNat) 0

namespace Ledger

def empty : Ledger := ⟨[], []⟩

/-- What an operation answers, and the ledger afterwards.  A new record gets the
number that was freed first, or else the one above the highest that is stored;
a log that is opened again has forgotten what was freed. -/
def perform (ledger : Ledger) : LogOp → LogAnswer × Ledger
  | .append time record =>
    match Store.checkRecord record with
    | .error e => (.refused e, ledger)
    | .ok () =>
      match ledger.freed with
      | id :: rest => (.appended id, ⟨ledger.records ++ [⟨time, id, record⟩], rest⟩)
      | [] =>
        let id := RecordId.ofNat (highestOf (ledger.records.map (·.id)) + 1)
        (.appended id, ⟨ledger.records ++ [⟨time, id, record⟩], []⟩)
  | .delete id =>
    if ledger.records.any (·.id = id) then
      (.deleted true, ⟨ledger.records.filter (·.id ≠ id), ledger.freed ++ [id]⟩)
    else (.deleted false, ledger)
  | .clear _ => (.cleared, empty)
  | .reopen => (.opened, ⟨ledger.records, []⟩)

/-- What operations answer one after the other, and the ledger after them. -/
def run (ledger : Ledger) : List LogOp → List LogAnswer × Ledger
  | [] => ([], ledger)
  | op :: ops =>
    let (answer, next) := ledger.perform op
    let (answers, last) := next.run ops
    (answer :: answers, last)

/-- A run with one more operation is that operation behind the run. -/
theorem run_concat (ledger : Ledger) (ops : List LogOp) (op : LogOp) :
    ledger.run (ops ++ [op]) =
      ((ledger.run ops).1 ++ [((ledger.run ops).2.perform op).1],
        ((ledger.run ops).2.perform op).2) := by
  induction ops generalizing ledger with
  | nil => rfl
  | cons first ops ih => simp [run, ih]

end Ledger

/-! ## The highest number -/

/-- The highest number so far is the highest of all, begun at any. -/
theorem foldl_max_eq (ids : List RecordId) (most : Nat) :
    ids.foldl (fun most id => max most id.toNat) most = max most (highestOf ids) := by
  induction ids generalizing most with
  | nil => simp [highestOf]
  | cons id ids ih =>
    rw [highestOf, List.foldl_cons, List.foldl_cons, ih, ih]
    omega

theorem highestOf_concat (ids : List RecordId) (id : RecordId) :
    highestOf (ids ++ [id]) = max (highestOf ids) id.toNat := by
  rw [highestOf, List.foldl_append]
  rfl

theorem highestOf_le {ids : List RecordId} {limit : Nat} :
    highestOf ids ≤ limit ↔ ∀ id ∈ ids, id.toNat ≤ limit := by
  induction ids with
  | nil => simp [highestOf]
  | cons id ids ih =>
    rw [highestOf, List.foldl_cons, foldl_max_eq, List.forall_mem_cons, ← ih]
    omega

/-- The highest number depends only on which numbers there are. -/
theorem highestOf_congr {ids others : List RecordId} (h : ∀ id, id ∈ ids ↔ id ∈ others) :
    highestOf ids = highestOf others :=
  le_antisymm (highestOf_le.mpr fun id hid => highestOf_le.mp le_rfl id ((h id).mp hid))
    (highestOf_le.mpr fun id hid => highestOf_le.mp le_rfl id ((h id).mpr hid))

/-- The allocator finds the highest number of those that are valid. -/
theorem rank_highest_eq {ids : List RecordId} (h : ∀ id ∈ ids, id.IsValid) :
    (Allocator.highest ids).rank = highestOf ids := by
  rw [Allocator.rank_highest, highestOf]
  generalize 0 = most
  induction ids generalizing most with
  | nil => rfl
  | cons id ids ih =>
    rw [List.foldl_cons, List.foldl_cons, RecordId.rank_of_isValid (h id List.mem_cons_self),
      ih fun other hother => h other (List.mem_cons_of_mem id hother)]

/-! ## Sound ledgers -/

/-- One more record, or none any more. -/
def countAfter (count : Nat) : LogOp → Nat
  | .append _ _ => count + 1
  | .clear _ => 0
  | _ => count

/-- The records that were added since the start or since the log was last cleared. -/
def appendsSinceClear (ops : List LogOp) : Nat := ops.foldl countAfter 0

namespace Ledger

variable {limit : Nat} {ledger : Ledger}

/-- The numbers that are taken or were freed. -/
def ids (ledger : Ledger) : List RecordId := ledger.records.map (·.id) ++ ledger.freed

/-- No number is there twice, and all lie between 1 and a limit. -/
structure Sound (limit : Nat) (ledger : Ledger) : Prop where
  distinct : ledger.ids.Nodup
  range : ∀ id ∈ ledger.ids, 1 ≤ id.toNat ∧ id.toNat ≤ limit

theorem Sound.mono {limit' : Nat} (h : ledger.Sound limit) (hle : limit ≤ limit') :
    ledger.Sound limit' :=
  ⟨h.distinct, fun id hid => ⟨(h.range id hid).1, (h.range id hid).2.trans hle⟩⟩

theorem Sound.highestOf_le (h : ledger.Sound limit) : highestOf ledger.ids ≤ limit :=
  EventLog.highestOf_le.mpr fun id hid => (h.range id hid).2

theorem ids_append_freed {id : RecordId} {rest : List RecordId} (hfreed : ledger.freed = id :: rest)
    (time : Timestamp) (record : Record) :
    ids ⟨ledger.records ++ [⟨time, id, record⟩], rest⟩ = ledger.ids := by
  simp [ids, hfreed]

theorem ids_append_next (hfreed : ledger.freed = []) (time : Timestamp) (id : RecordId)
    (record : Record) :
    ids ⟨ledger.records ++ [⟨time, id, record⟩], []⟩ = ledger.ids ++ [id] := by
  simp [ids, hfreed]

/-- A record that is deleted only moves its number to the freed ones. -/
theorem mem_ids_delete {id : RecordId} (hid : id ∈ ledger.records.map (·.id)) (other : RecordId) :
    other ∈ ids ⟨ledger.records.filter (·.id ≠ id), ledger.freed ++ [id]⟩ ↔ other ∈ ledger.ids := by
  simp only [ids, List.mem_append, List.mem_map, List.mem_filter, List.mem_singleton] at hid ⊢
  constructor
  · rintro (⟨stored, ⟨hs, -⟩, rfl⟩ | hf | rfl)
    · exact .inl ⟨stored, hs, rfl⟩
    · exact .inr hf
    · exact .inl hid
  · rintro (⟨stored, hs, rfl⟩ | hf)
    · by_cases he : stored.id = id
      · exact .inr (.inr he)
      · exact .inl ⟨stored, ⟨hs, by simpa using he⟩, rfl⟩
    · exact .inr (.inl hf)

/-- A new number keeps the ledger sound, at a limit one higher. -/
theorem Sound.append_next (h : ledger.Sound limit) (hlimit : limit < 65534)
    (hfreed : ledger.freed = []) (time : Timestamp) (record : Record) :
    Sound (limit + 1)
      ⟨ledger.records ++ [⟨time, RecordId.ofNat (highestOf ledger.ids + 1), record⟩], []⟩ := by
  have htop := h.highestOf_le
  have hnew : (RecordId.ofNat (highestOf ledger.ids + 1)).toNat = highestOf ledger.ids + 1 :=
    RecordId.toNat_ofNat (by omega)
  refine ⟨?_, ?_⟩ <;> rw [ids_append_next hfreed]
  · rw [List.nodup_append]
    refine ⟨h.distinct, List.nodup_singleton _, fun id hid other hother => ?_⟩
    rw [List.mem_singleton] at hother
    rintro rfl
    have := EventLog.highestOf_le.mp le_rfl id hid
    rw [hother, hnew] at this
    omega
  · rw [List.forall_mem_append]
    refine ⟨fun id hid => ?_, ?_⟩
    · have := h.range id hid
      exact ⟨this.1, by omega⟩
    · rw [List.forall_mem_singleton, hnew]
      omega

/-- A deletion keeps the ledger sound. -/
theorem Sound.delete (h : ledger.Sound limit) {id : RecordId}
    (hid : id ∈ ledger.records.map (·.id)) :
    Sound limit ⟨ledger.records.filter (·.id ≠ id), ledger.freed ++ [id]⟩ := by
  obtain ⟨hrecords, hfreed, hdisjoint⟩ := List.nodup_append.mp h.distinct
  have hfilter : (ledger.records.filter (·.id ≠ id)).map (·.id)
      = (ledger.records.map (·.id)).filter (· ≠ id) := by
    rw [List.filter_map]
    rfl
  refine ⟨?_, fun other hother => h.range other ((mem_ids_delete hid other).mp hother)⟩
  rw [ids, hfilter, List.nodup_append]
  refine ⟨hrecords.filter _, ?_, fun a ha b hb => ?_⟩
  · rw [List.nodup_append]
    refine ⟨hfreed, List.nodup_singleton _, fun a ha b hb => ?_⟩
    rw [List.mem_singleton] at hb
    exact hb ▸ (hdisjoint id hid a ha).symm
  · rw [List.mem_filter] at ha
    rcases List.mem_append.mp hb with hb | hb
    · exact hdisjoint a ha.1 b hb
    · rw [List.mem_singleton] at hb
      exact hb ▸ by simpa using ha.2

theorem mem_map_of_any {records : List StoredRecord} {id : RecordId}
    (h : records.any (·.id = id) = true) : id ∈ records.map (·.id) := by
  obtain ⟨stored, hs, he⟩ := List.any_eq_true.mp h
  exact List.mem_map.mpr ⟨stored, hs, by simpa using he⟩

theorem ids_of_freed_eq_nil (hfreed : ledger.freed = []) :
    ledger.ids = ledger.records.map (·.id) := by
  rw [ids, hfreed, List.append_nil]

/-- Every operation keeps a ledger sound. -/
theorem Sound.perform (h : ledger.Sound limit) {op : LogOp} (hlimit : countAfter limit op ≤ 65534) :
    (ledger.perform op).2.Sound (countAfter limit op) := by
  cases op with
  | append time record =>
    rw [Ledger.perform]
    split
    · exact h.mono (Nat.le_succ limit)
    · split
      · next hfreed =>
        have hids := ids_append_freed hfreed time record
        exact Sound.mono ⟨hids ▸ h.distinct, hids ▸ h.range⟩ (Nat.le_succ limit)
      · next hfreed =>
        rw [← ids_of_freed_eq_nil hfreed]
        exact h.append_next hlimit hfreed time record
  | delete id =>
    rw [Ledger.perform]
    split
    · next hid => exact h.delete (mem_map_of_any hid)
    · exact h
  | clear time => exact ⟨List.nodup_nil, by simp [Ledger.perform, ids, empty]⟩
  | reopen =>
    refine ⟨?_, fun id hid => h.range id ?_⟩ <;> simp only [Ledger.perform, ids, List.append_nil] at *
    · exact (List.nodup_append.mp h.distinct).1
    · exact List.mem_append_left _ hid

end Ledger

namespace Ledger

/-- A record of the ledger was there before, or was just appended and not refused. -/
theorem mem_of_mem_perform {ledger : Ledger} {op : LogOp} {stored : StoredRecord}
    (h : stored ∈ (ledger.perform op).2.records) :
    stored ∈ ledger.records ∨
      op = .append stored.time stored.record ∧ Store.checkRecord stored.record = .ok () := by
  cases op with
  | append time record =>
    rw [perform] at h
    split at h
    · exact .inl h
    · next hcheck =>
      split at h <;> rcases List.mem_append.mp h with h | h
      · exact .inl h
      · rw [List.mem_singleton] at h
        subst h
        exact .inr ⟨rfl, hcheck⟩
      · exact .inl h
      · rw [List.mem_singleton] at h
        subst h
        exact .inr ⟨rfl, hcheck⟩
  | delete id =>
    rw [perform] at h
    split at h
    · exact .inl (List.mem_filter.mp h).1
    · exact .inl h
  | clear time => exact absurd h List.not_mem_nil
  | reopen => exact .inl h

/-- Every record of a ledger was added by one of the operations, and was not refused. -/
theorem mem_of_mem_run {ops : List LogOp} {stored : StoredRecord}
    (h : stored ∈ (empty.run ops).2.records) :
    .append stored.time stored.record ∈ ops ∧ Store.checkRecord stored.record = .ok () := by
  induction ops using List.reverseRecOn with
  | nil => exact absurd h List.not_mem_nil
  | append_singleton ops op ih =>
    rw [run_concat] at h
    rcases mem_of_mem_perform h with h | ⟨rfl, hcheck⟩
    · exact ⟨List.mem_append_left _ (ih h).1, (ih h).2⟩
    · exact ⟨List.mem_append_right _ (List.mem_singleton.mpr rfl), hcheck⟩

end Ledger

/-! ## A log and its ledger -/

namespace Log

open StoreConfig

variable {config : StoreConfig} {ledger : Ledger} {limit : Nat} {log next : Log}
  {answer : LogAnswer}

/-- A log of one file holds the records of a ledger, and numbers as it says. -/
structure Follows (config : StoreConfig) (ledger : Ledger) (log : Log) : Prop where
  shelf : ∃ shelf : Shelf, log.OnShelf config shelf ∧ shelf.length ≤ 1 ∧
    shelf.flatten = ledger.records
  free_eq : log.store.allocator.free = ledger.freed
  rank_eq : log.store.allocator.counter.rank = highestOf ledger.ids

/-- A shelf of one file has its records in the order of that file. -/
theorem records_of_length_le {shelf : Shelf} (h : shelf.length ≤ 1) :
    shelf.records = shelf.flatten := by
  match shelf with
  | [] => rfl
  | [_] => rfl

/-- Without a limit of size the shelf stays one file, and the record goes to its end. -/
theorem add_of_unlimited (hbytes : config.maxFileBytes = 0) {shelf : Shelf} (h : shelf.length ≤ 1)
    (stored : StoredRecord) :
    (shelf.add config stored).length ≤ 1 ∧
      (shelf.add config stored).flatten = shelf.flatten ++ [stored] := by
  have hfull (records : List StoredRecord) : ¬ Shelf.IsFull config records := fun hf => by
    have := hf.1
    omega
  match shelf with
  | [] => simp [Shelf.add]
  | [records] => simp [Shelf.add, hfull]

/-- A deletion leaves the shelf one file. -/
theorem remove_of_length_le {shelf : Shelf} (h : shelf.length ≤ 1) (id : RecordId) :
    (shelf.remove id).length ≤ 1 ∧
      (shelf.remove id).flatten = shelf.flatten.filter (·.id ≠ id) := by
  match shelf with
  | [] => simp [Shelf.remove]
  | [records] =>
    rw [Shelf.remove]
    split
    · simp
    · next hany =>
      refine ⟨by simp [Shelf.remove], ?_⟩
      simp only [Shelf.remove, List.flatten_cons, List.flatten_nil, List.append_nil]
      refine (List.filter_eq_self.mpr fun stored hs => ?_).symm
      have := List.any_eq_false.mp (Bool.not_eq_true _ ▸ hany) stored hs
      simpa using this

/-- An appended record is answered and kept as the ledger has it. -/
theorem Follows.append (h : log.Follows config ledger) (hsound : ledger.Sound limit)
    (hlimit : limit < 65534) (hbytes : config.maxFileBytes = 0) (hword : config.HasWord)
    (hname : IsFileName config.logName) {time : Timestamp} {record : Record}
    (hop : log.perform (.append time record) = .ok (answer, next)) :
    answer = (ledger.perform (.append time record)).1 ∧
      next.Follows config (ledger.perform (.append time record)).2 := by
  obtain ⟨⟨shelf, hshelf, hlength, hrecords⟩, hfree, hrank⟩ := h
  have hnext := hshelf.perform hword hname hop
  rcases append_ok hop with ⟨e, hcheck, rfl, rfl⟩ | ⟨hcheck, rfl, hstore, -⟩
  · simp only [Ledger.perform, hcheck]
    exact ⟨trivial, ⟨shelf, hshelf, hlength, hrecords⟩, hfree, hrank⟩
  · obtain ⟨hlength', hflatten⟩ := add_of_unlimited hbytes hlength
      ⟨time, log.store.allocator.allocate.1, record⟩
    rw [hrecords] at hflatten
    simp only [Ledger.perform, hcheck]
    cases hfreed : ledger.freed with
    | cons id rest =>
      rw [hfreed] at hfree
      have hid := Allocator.allocate_of_cons hfree
      rw [hid] at hflatten hstore hlength' hnext ⊢
      refine ⟨rfl, ⟨_, hnext, hlength', hflatten⟩, by rw [hstore], ?_⟩
      rw [hstore, Ledger.ids_append_freed hfreed]
      exact hrank
    | nil =>
      rw [hfreed] at hfree
      have hle := hsound.highestOf_le
      have hbelow : log.store.allocator.counter.rank < 65534 := by omega
      have hnumber : Allocator.successor log.store.allocator.counter
          = RecordId.ofNat (highestOf ledger.ids + 1) := by
        refine RecordId.ext_toNat ?_
        rw [Allocator.toNat_successor hbelow, RecordId.toNat_ofNat (by omega), hrank]
      have hid := Allocator.allocate_of_nil hfree
      rw [hid] at hflatten hstore hlength' hnext ⊢
      rw [Ledger.ids_of_freed_eq_nil hfreed] at hnumber hrank
      simp only [hnumber] at hflatten hlength' hnext ⊢
      refine ⟨trivial, ⟨_, hnext, hlength', hflatten⟩, by rw [hstore]; exact hfree, ?_⟩
      rw [hstore, Ledger.ids_append_next hfreed, highestOf_concat,
        Ledger.ids_of_freed_eq_nil hfreed, ← hnumber, Allocator.rank_successor,
        Allocator.toNat_successor hbelow, hrank]
      omega

/-- A deleted record is answered and dropped as the ledger has it. -/
theorem Follows.delete (h : log.Follows config ledger) (hsound : ledger.Sound limit)
    (hlimit : limit ≤ 65534) (hword : config.HasWord) (hname : IsFileName config.logName)
    {id : RecordId} (hop : log.perform (.delete id) = .ok (answer, next)) :
    answer = (ledger.perform (.delete id)).1 ∧
      next.Follows config (ledger.perform (.delete id)).2 := by
  obtain ⟨⟨shelf, hshelf, hlength, hrecords⟩, hfree, hrank⟩ := h
  have hnext := hshelf.perform hword hname hop
  obtain ⟨rfl, hstore⟩ := hshelf.delete hword hname hop
  obtain ⟨hlength', hflatten⟩ := remove_of_length_le hlength id
  rw [hrecords] at hflatten
  rw [records_of_length_le hlength, hrecords] at hstore ⊢
  simp only [Ledger.perform]
  cases hany : ledger.records.any (·.id = id) with
  | true =>
    have hmem := Ledger.mem_map_of_any hany
    have hrange := hsound.range id (List.mem_append_left _ hmem)
    have hvalid : id.IsValid := (RecordId.isValid_iff id).mpr
      ⟨hrange.1, hrange.2.trans hlimit⟩
    have hnot : id ∉ log.store.allocator.free := by
      rw [hfree]
      exact fun hf => (List.nodup_append.mp hsound.distinct).2.2 id hmem id hf rfl
    rw [hany, if_pos rfl, Allocator.release_of_not_mem hvalid hnot] at hstore
    rw [if_pos rfl]
    refine ⟨rfl, ⟨_, hnext, hlength', hflatten⟩, ?_, ?_⟩ <;> rw [hstore]
    · exact congrArg (· ++ [id]) hfree
    · exact hrank.trans (highestOf_congr fun other => (Ledger.mem_ids_delete hmem other).symm)
  | false =>
    rw [hany] at hstore
    rw [if_neg (by simp)]
    rw [List.filter_eq_self.mpr fun stored hs => by
      simpa using List.any_eq_false.mp hany stored hs] at hflatten
    refine ⟨rfl, ⟨_, hnext, hlength', hflatten⟩, ?_, ?_⟩ <;> rw [hstore]
    · exact hfree
    · exact hrank

/-- **A log follows its ledger** in every operation. -/
theorem Follows.perform (h : log.Follows config ledger) (hsound : ledger.Sound limit) {op : LogOp}
    (hlimit : limit ≤ 65534) (hafter : countAfter limit op ≤ 65534)
    (hbytes : config.maxFileBytes = 0) (hword : config.HasWord)
    (hname : IsFileName config.logName) (hop : log.perform op = .ok (answer, next)) :
    answer = (ledger.perform op).1 ∧ next.Follows config (ledger.perform op).2 := by
  cases op with
  | append time record => exact h.append hsound hafter hbytes hword hname hop
  | delete id => exact h.delete hsound hlimit hword hname hop
  | clear time =>
    obtain ⟨shelf, hshelf, -, -⟩ := h.shelf
    have hnext := hshelf.perform hword hname hop
    obtain ⟨rfl, place, hs, -⟩ := hshelf
    obtain ⟨rfl, hclear⟩ := clear_ok hop
    obtain ⟨hstore, -, -⟩ := StoreConfig.clear_ok hs hname hclear
    exact ⟨rfl, ⟨[], hnext, by simp, rfl⟩, by rw [hstore]; rfl, by rw [hstore]; rfl⟩
  | reopen =>
    obtain ⟨shelf, hshelf, hlength, hrecords⟩ := h.shelf
    have hnext := hshelf.perform hword hname hop
    have hallocator := hshelf.reopen hword hname hop
    obtain ⟨rfl, -⟩ := reopen_ok hop
    have hvalid (id : RecordId) (hid : id ∈ ledger.records.map (·.id)) : id.IsValid := by
      have := hsound.range id (List.mem_append_left _ hid)
      exact (RecordId.isValid_iff _).mpr ⟨this.1, this.2.trans hlimit⟩
    refine ⟨rfl, ⟨shelf, hnext, hlength, hrecords⟩, by rw [hallocator]; rfl, ?_⟩
    rw [hallocator, Allocator.resume, hrecords, rank_highest_eq hvalid]
    exact congrArg highestOf (List.append_nil _).symm

/-- The lines of records are read as their entries. -/
theorem entriesOf_lines {records : List StoredRecord}
    (h : ∀ stored ∈ records, (0 ≤ stored.time.date.year ∧ stored.time.date.year ≤ 9999) ∧
      Store.checkRecord stored.record = .ok ()) :
    entriesOf (records.map StoredRecord.line) = records.map StoredRecord.entry := by
  rw [entriesOf, List.filterMap_map, ← List.filterMap_eq_map]
  refine List.filterMap_congr fun stored hs => ?_
  obtain ⟨hyear, hcheck⟩ := h stored hs
  have hread := Line.ofLine?_format hyear stored.id (checkRecord_eq_ok.mp hcheck)
  exact congrArg Except.toOption hread

variable {disk : Disk} {start : Log} {ops : List LogOp} {answers : List LogAnswer}

/-- The log of every run follows its ledger, and answered what it says. -/
theorem follows_run (hname : IsFileName config.logName) (hword : config.HasWord)
    (hbytes : config.maxFileBytes = 0) (hempty : disk.list config.directory = .ok [])
    (hopen : Log.open config disk = .ok start)
    (hcount : ∀ front, front <+: ops → appendsSinceClear front ≤ 65534)
    (hrun : start.run ops = .ok (answers, log)) :
    answers = (Ledger.empty.run ops).1 ∧ log.Follows config (Ledger.empty.run ops).2 ∧
      (Ledger.empty.run ops).2.Sound (appendsSinceClear ops) := by
  induction ops using List.reverseRecOn generalizing answers log with
  | nil =>
    cases hrun
    obtain ⟨hshelf, hallocator⟩ := onShelf_open hname hempty hopen
    exact ⟨rfl, ⟨⟨[], hshelf, by simp, rfl⟩, by rw [hallocator]; rfl, by rw [hallocator]; rfl⟩,
      List.nodup_nil, by simp [Ledger.run, Ledger.ids, Ledger.empty]⟩
  | append_singleton ops op ih =>
    obtain ⟨front, middle, answer, hfront, hop, rfl⟩ := run_concat.mp hrun
    obtain ⟨rfl, hfollows, hsound⟩ := ih (fun f hf => hcount f (hf.trans (List.prefix_append ops _)))
      hfront
    have hafter := hcount _ List.prefix_rfl
    rw [appendsSinceClear, List.foldl_append] at hafter
    obtain ⟨rfl, hnext⟩ := hfollows.perform hsound (hcount ops (List.prefix_append ops _)) hafter
      hbytes hword hname hop
    rw [Ledger.run_concat, appendsSinceClear, List.foldl_append]
    exact ⟨rfl, hnext, hsound.perform hafter⟩

/-- **A log is an ordered list of records.**  Every operation answers what the
ledger of the run says; the entries are its records in the order in which they
were added, no two with one number; and they are counted, whenever the erase
marker can be looked at. -/
theorem log_refines_ledger (hname : IsFileName config.logName) (hword : config.HasWord)
    (hbytes : config.maxFileBytes = 0) (hempty : disk.list config.directory = .ok [])
    (hopen : Log.open config disk = .ok start)
    (hyear : ∀ time record, .append time record ∈ ops →
      0 ≤ time.date.year ∧ time.date.year ≤ 9999)
    (hcount : ∀ front, front <+: ops → appendsSinceClear front ≤ 65534)
    (hrun : start.run ops = .ok (answers, log)) :
    answers = (Ledger.empty.run ops).1 ∧
      log.entries = .ok ((Ledger.empty.run ops).2.records.map StoredRecord.entry) ∧
      ((Ledger.empty.run ops).2.records.map StoredRecord.entry).Pairwise (·.id ≠ ·.id) ∧
      ∀ lastErase, ((StoreConfig.modifiedTime config.eraseMarker).run log.disk).1 = .ok lastErase →
        config.logName.utf8ByteSize ≤ Disk.nameLimit →
        ∃ lastAdd, log.info = .ok ⟨(Ledger.empty.run ops).2.records.length, lastAdd, lastErase⟩ := by
  obtain ⟨hanswers, hfollows, hsound⟩ :=
    follows_run hname hword hbytes hempty hopen hcount hrun
  obtain ⟨shelf, hshelf, hlength, hrecords⟩ := hfollows.shelf
  rw [← records_of_length_le hlength] at hrecords
  refine ⟨hanswers, ?_, ?_, fun lastErase hmarker hfits => ?_⟩
  · rw [hshelf.entries_eq hword hname, hrecords, entriesOf_lines fun stored hs => ?_]
    obtain ⟨hmem, hcheck⟩ := Ledger.mem_of_mem_run hs
    exact ⟨hyear _ _ hmem, hcheck⟩
  · have hdistinct := (List.nodup_append.mp hsound.distinct).1
    rw [List.Nodup, List.pairwise_map] at hdistinct
    rw [List.pairwise_map]
    exact hdistinct.imp fun {a b} hne => by rwa [id_entry, id_entry]
  · rw [← hrecords]
    exact hshelf.info_eq hword hname hfits hmarker

/-- A number that was freed is handed out again, unless the log was opened in between. -/
theorem log_refines_ledger_across_reopen :
    let config : StoreConfig := ⟨⟨"/log"⟩, "sel", ⟨"/erased"⟩, 0, 1⟩
    let disk : Disk := ⟨.epoch, 0, [([], .directory .epoch), (["log"], .directory .epoch)]⟩
    let fan : Record := ⟨2, "", [1, 255, 255], .system 32 "/x/Fan 1" true, []⟩
    let oem : Record := ⟨0xE0, "", [], .oem, []⟩
    let ops : List LogOp := [.append .epoch fan, .append .epoch oem, .append .epoch fan,
      .delete ⟨1⟩, .delete ⟨3⟩, .delete ⟨3⟩, .append .epoch oem, .reopen, .append .epoch fan]
    ∃ start log, Log.open config disk = .ok start ∧
      start.run ops = .ok ([.appended ⟨1⟩, .appended ⟨2⟩, .appended ⟨3⟩, .deleted true, .deleted true,
        .deleted false, .appended ⟨1⟩, .opened, .appended ⟨3⟩], log) ∧
      log.entries = .ok [oem.entry .epoch ⟨2⟩, oem.entry .epoch ⟨1⟩, fan.entry .epoch ⟨3⟩] := by
  intro config disk fan oem ops
  have hanswers : (Log.open config disk >>= fun log => (log.run ops).map (·.1))
      = .ok (Ledger.empty.run ops).1 := by
    decide +kernel
  have hname : IsFileName config.logName := by decide
  have hempty : disk.list config.directory = .ok [] := by decide +kernel
  have hyear (time : Timestamp) (record : Record) (hop : .append time record ∈ ops) :
      0 ≤ time.date.year ∧ time.date.year ≤ 9999 := by
    have htime : time = .epoch := by
      simp only [ops, List.mem_cons, LogOp.append.injEq, reduceCtorEq, List.not_mem_nil,
        false_or, or_false] at hop
      tauto
    rw [htime]
    decide +kernel
  have hcount (front : List LogOp) (hfront : front <+: ops) : appendsSinceClear front ≤ 65534 := by
    have hall : ∀ front ∈ ops.inits, appendsSinceClear front ≤ 65534 := by decide
    exact hall front ((List.mem_inits _ _).mpr hfront)
  obtain ⟨start, log, hopen, hrun⟩ := exists_run hanswers
  have hrefines := log_refines_ledger hname (by decide : (1 : Nat) < Text.wordLimit) rfl hempty hopen
    hyear hcount hrun
  exact ⟨start, log, hopen, hrun, hrefines.2.1⟩

end Log

end EventLog
