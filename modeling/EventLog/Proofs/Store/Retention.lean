import EventLog.Proofs.Store.Shelf

/-!
# EventLog.Proofs.Store.Retention

What a log keeps whose files are limited, and in which order.

* `Shelf.records_add`: a new record comes behind all others, and only the
  oldest file goes for it (`Shelf.kept`);
* `Shelf.bounded_add`, `Shelf.bounded_remove`: without its last record no file
  reaches the limit;
* `rotation_loses_only_oldest`: so it is in every state of a log that was empty.
-/

namespace EventLog

open Disk (StandsAt)
open Step

namespace Shelf

variable {config : StoreConfig} {shelf : Shelf} {stored : StoredRecord}

/-- The files whose records stay when another one is added: the oldest file goes
if the active one is full and there are as many files as there may be. -/
def kept (config : StoreConfig) (shelf : Shelf) : Shelf :=
  if (∃ active ∈ shelf.head?, IsFull config active) ∧ shelf.length = max config.maxFiles 1 then
    shelf.dropLast
  else shelf

theorem records_cons (records : List StoredRecord) (shelf : Shelf) :
    Shelf.records (records :: shelf) = shelf.records ++ records := by
  simp [Shelf.records]

/-- A new record comes behind all that are kept. -/
theorem records_add (config : StoreConfig) (stored : StoredRecord) (shelf : Shelf) :
    (shelf.add config stored).records = (shelf.kept config).records ++ [stored] := by
  cases shelf with
  | nil =>
    have hkept : kept config [] = [] := by simp [kept]
    rw [add, hkept, records_cons]
  | cons active older =>
    rw [add]
    split
    · next hfull =>
      have hkept : kept config (active :: older) = moved config (active :: older) := by
        simp [kept, moved, hfull]
      rw [records_cons, hkept]
    · next hfull =>
      have hkept : kept config (active :: older) = active :: older := by simp [kept, hfull]
      rw [hkept, records_cons, records_cons, List.append_assoc]

/-- The oldest file is the first to be dropped, so the rest is in order. -/
theorem kept_records_sublist (config : StoreConfig) (shelf : Shelf) :
    (shelf.kept config).records.Sublist shelf.records := by
  unfold kept
  split
  · rcases shelf.eq_nil_or_concat' with rfl | ⟨front, oldest, rfl⟩
    · exact List.Sublist.refl _
    · rw [List.dropLast_concat]
      simp [Shelf.records]
  · exact List.Sublist.refl _

/-- A deletion leaves the other records in order. -/
theorem remove_records_sublist (id : RecordId) (shelf : Shelf) :
    (shelf.remove id).records.Sublist shelf.records := by
  induction shelf with
  | nil => exact List.Sublist.refl _
  | cons records shelf ih =>
    rw [remove]
    split
    · rw [records_cons, records_cons]
      exact (List.Sublist.refl _).append List.filter_sublist
    · rw [records_cons, records_cons]
      exact ih.append (List.Sublist.refl _)

/-! ## The limit of a file -/

/-- Without its last record, no file has reached the limit. -/
def Bounded (config : StoreConfig) (shelf : Shelf) : Prop :=
  ∀ records ∈ shelf, (bytes records.dropLast).size < config.maxFileBytes

theorem size_bytes_cons (stored : StoredRecord) (records : List StoredRecord) :
    (bytes (stored :: records)).size
      = (bytesOf (stored.line ++ ['\n'])).size + (bytes records).size := by
  have hcut : bytes (stored :: records) = bytesOf (stored.line ++ ['\n']) ++ bytes records := by
    simp [bytes, textOfLines]
  rw [hcut, ByteArray.size_append]

/-- Fewer records have fewer bytes. -/
theorem size_bytes_le {records more : List StoredRecord} (h : records.Sublist more) :
    (bytes records).size ≤ (bytes more).size := by
  induction h with
  | slnil => exact le_rfl
  | cons stored _ ih =>
    rw [size_bytes_cons]
    omega
  | cons_cons stored _ ih =>
    rw [size_bytes_cons, size_bytes_cons]
    omega

/-- Dropping lines puts none before the last one that was not there. -/
theorem dropLast_filter_sublist (p : StoredRecord → Bool) (records : List StoredRecord) :
    (records.filter p).dropLast.Sublist records.dropLast := by
  rcases records.eq_nil_or_concat' with rfl | ⟨front, last, rfl⟩
  · exact List.Sublist.refl _
  · rw [List.filter_append, List.dropLast_concat]
    by_cases hp : p last = true
    · rw [List.filter_cons_of_pos hp, List.filter_nil, List.dropLast_concat]
      exact List.filter_sublist
    · rw [List.filter_cons_of_neg hp, List.filter_nil, List.append_nil]
      exact (List.dropLast_sublist _).trans List.filter_sublist

/-- An appended record leaves the shelf bounded. -/
theorem bounded_add (hsize : 0 < config.maxFileBytes) (h : Bounded config shelf)
    (stored : StoredRecord) : Bounded config (shelf.add config stored) := by
  have hnil : (bytes []).size = 0 := rfl
  have hsingle : (bytes [stored].dropLast).size < config.maxFileBytes := by
    rwa [List.dropLast_singleton, hnil]
  cases shelf with
  | nil => simpa [Bounded, add] using hsingle
  | cons active older =>
    rw [add]
    split
    · intro records hr
      rcases List.mem_cons.mp hr with rfl | hr
      · exact hsingle
      · exact h records (mem_of_mem_moved hr)
    · next hfull =>
      intro records hr
      rcases List.mem_cons.mp hr with rfl | hr
      · rw [List.dropLast_concat]
        by_contra hle
        exact hfull ⟨hsize, by omega⟩
      · exact h records (List.mem_cons_of_mem active hr)

/-- A deleted record leaves the shelf bounded. -/
theorem bounded_remove (h : Bounded config shelf) (id : RecordId) :
    Bounded config (shelf.remove id) := by
  induction shelf with
  | nil => exact h
  | cons first shelf ih =>
    have hrest : Bounded config shelf := fun records hr => h records (List.mem_cons_of_mem first hr)
    have hfirst := h first List.mem_cons_self
    rw [remove]
    split
    · intro records hr
      rcases List.mem_cons.mp hr with rfl | hr
      · exact (size_bytes_le (dropLast_filter_sublist _ first)).trans_lt hfirst
      · exact hrest records hr
    · intro records hr
      rcases List.mem_cons.mp hr with rfl | hr
      · exact hfirst
      · exact ih hrest records hr

end Shelf

/-! ## Runs -/

/-- The records that a run added, in their order. -/
def appended (ops : List LogOp) (answers : List LogAnswer) : List StoredRecord :=
  (ops.zip answers).filterMap fun
    | (.append time record, .appended id) => some ⟨time, id, record⟩
    | _ => none

/-- What a run appended, with one more operation. -/
theorem appended_concat {ops : List LogOp} {answers : List LogAnswer}
    (hlength : ops.length = answers.length) (op : LogOp) (answer : LogAnswer) :
    appended (ops ++ [op]) (answers ++ [answer])
      = appended ops answers ++ appended [op] [answer] := by
  rw [appended, List.zip_append hlength, List.filterMap_append]
  rfl

/-- An operation adds at most its own record, behind all others. -/
theorem Shelf.records_after_sublist (config : StoreConfig) (shelf : Shelf) (op : LogOp)
    (answer : LogAnswer) :
    (shelf.after config op answer).records.Sublist (shelf.records ++ appended [op] [answer]) := by
  cases op with
  | append time record =>
    cases answer with
    | appended id =>
      rw [Shelf.after, Shelf.records_add]
      exact (Shelf.kept_records_sublist config shelf).append (List.Sublist.refl _)
    | _ => exact List.sublist_append_left _ _
  | delete id => exact (Shelf.remove_records_sublist id shelf).trans (List.sublist_append_left _ _)
  | clear time => exact List.nil_sublist _
  | reopen => exact List.sublist_append_left _ _

/-- Every operation leaves the shelf bounded. -/
theorem Shelf.bounded_after {config : StoreConfig} {shelf : Shelf} (hsize : 0 < config.maxFileBytes)
    (h : shelf.Bounded config) (op : LogOp) (answer : LogAnswer) :
    (shelf.after config op answer).Bounded config := by
  cases op with
  | append time record =>
    cases answer with
    | appended id => exact Shelf.bounded_add hsize h _
    | _ => exact h
  | delete id => exact Shelf.bounded_remove h id
  | clear time => exact fun _ hm => absurd hm List.not_mem_nil
  | reopen => exact h

namespace Log

open StoreConfig

variable {config : StoreConfig} {disk : Disk} {start log : Log} {ops : List LogOp}
  {answers : List LogAnswer}

/-- Every operation has its answer. -/
theorem length_answers (h : start.run ops = .ok (answers, log)) : ops.length = answers.length := by
  induction ops generalizing start answers with
  | nil =>
    cases h
    rfl
  | cons op ops ih =>
    obtain ⟨answer, next, rest, -, hrest, rfl⟩ := run_cons_eq_ok.mp h
    rw [List.length_cons, List.length_cons, ih hrest]

/-- The shelf of every state of a log that was empty when it was opened. -/
theorem exists_shelf (hname : IsFileName config.logName) (hword : config.HasWord)
    (hempty : disk.list config.directory = .ok []) (hopen : Log.open config disk = .ok start)
    (hrun : start.run ops = .ok (answers, log)) :
    ∃ shelf : Shelf, log.OnShelf config shelf ∧
      shelf.records.Sublist (appended ops answers) ∧
      (0 < config.maxFileBytes → shelf.Bounded config) := by
  induction ops using List.reverseRecOn generalizing answers log with
  | nil =>
    cases hrun
    exact ⟨[], (onShelf_open hname hempty hopen).1, List.Sublist.refl _, fun _ _ hm => by simp at hm⟩
  | append_singleton ops op ih =>
    obtain ⟨front, middle, answer, hfront, hop, rfl⟩ := run_concat.mp hrun
    obtain ⟨shelf, hshelf, hsub, hbounded⟩ := ih hfront
    refine ⟨_, hshelf.perform hword hname hop, ?_, fun hsize => ?_⟩
    · rw [appended_concat (length_answers hfront)]
      exact (Shelf.records_after_sublist config shelf op answer).trans
        (hsub.append (List.Sublist.refl _))
    · exact Shelf.bounded_after hsize (hbounded hsize) op answer

/-- **Rotation loses only the oldest file and never reorders.**  In every state
the files are the active one and those numbered from 1 on without a gap, no more
than allowed, and each is below the limit without its last line.  Adding a
record puts its line behind all others, of which only those of the oldest file
go, and only if the active file is full and there are as many as allowed. -/
theorem rotation_loses_only_oldest (hname : IsFileName config.logName) (hword : config.HasWord)
    (hsize : 0 < config.maxFileBytes) (hempty : disk.list config.directory = .ok [])
    (hopen : Log.open config disk = .ok start) (hrun : start.run ops = .ok (answers, log)) :
    ∃ shelf : Shelf,
      config.files.run log.disk = (.ok ((List.range shelf.length).map fun i =>
        config.directory.join (config.nameAt i)), log.disk) ∧
      shelf.length ≤ max config.maxFiles 1 ∧
      (∀ i (hi : i < shelf.length),
        log.disk.read (config.directory.join (config.nameAt i)) = .ok (Shelf.bytes shelf[i]) ∧
        (Shelf.bytes shelf[i].dropLast).size < config.maxFileBytes) ∧
      log.lines = .ok (shelf.records.map StoredRecord.line) ∧
      log.entries = .ok (entriesOf (shelf.records.map StoredRecord.line)) ∧
      shelf.records.Sublist (appended ops answers) ∧
      ∀ time record id next, log.perform (.append time record) = .ok (.appended id, next) →
        next.lines = .ok ((shelf.kept config).records.map StoredRecord.line
          ++ [Line.format time id record]) := by
  obtain ⟨shelf, hshelf, hsub, hbounded⟩ := exists_shelf hname hword hempty hopen hrun
  obtain ⟨hconfig, place, hs, htable⟩ := id hshelf
  refine ⟨shelf, ?_, htable.length_le, fun i hi => ⟨?_, ?_⟩, hshelf.lines_eq hword hname,
    hshelf.entries_eq hword hname, hsub, fun time record id next hop => ?_⟩
  · have hfiles := run_files hs
    rw [htable.logNames_eq hs hword, List.map_map] at hfiles
    exact hfiles
  · obtain ⟨number, time, hfile⟩ := htable.file i hi
    have hplain := isFileName_of_isLogFile hname
      (isLogFile_nameAt config (htable.lt_wordLimit hword hi.le))
    exact (Disk.read_join_eq_ok hs hplain).mpr ⟨htable.fits i hi, number, time, hfile⟩
  · exact hbounded hsize shelf[i] (List.getElem_mem hi)
  · have hnext := (hshelf.perform hword hname hop).lines_eq hword hname
    rw [Shelf.after, Shelf.records_add, List.map_append] at hnext
    exact hnext

/-- Two files of one line each: the fourth record drops the first that stayed. -/
theorem rotation_loses_only_oldest_of_two :
    let config : StoreConfig := ⟨⟨"/log"⟩, "sel", ⟨"/erased"⟩, 1, 2⟩
    let disk : Disk := ⟨.epoch, 0, [([], .directory .epoch), (["log"], .directory .epoch)]⟩
    let record : Record := ⟨2, "", [1, 255, 255], .system 32 "/x/Fan 1" true, []⟩
    let ops : List LogOp := [.append .epoch record, .delete ⟨1⟩, .append .epoch record, .reopen,
      .append .epoch record, .append .epoch record]
    let answers : List LogAnswer :=
      [.appended ⟨1⟩, .deleted true, .appended ⟨1⟩, .opened, .appended ⟨2⟩, .appended ⟨3⟩]
    ∃ start log, Log.open config disk = .ok start ∧ start.run ops = .ok (answers, log) ∧
      ∃ shelf : Shelf, shelf.length ≤ max config.maxFiles 1 ∧
        log.lines = .ok (shelf.records.map StoredRecord.line) ∧
        shelf.records.Sublist (appended ops answers) := by
  intro config disk record ops answers
  have hanswers : (Log.open config disk >>= fun log => (log.run ops).map (·.1)) = .ok answers := by
    decide +kernel
  have hname : IsFileName config.logName := by decide
  have hempty : disk.list config.directory = .ok [] := by decide +kernel
  obtain ⟨start, log, hopen, hrun⟩ := exists_run hanswers
  obtain ⟨shelf, -, hlength, -, hlines, -, hsub, -⟩ :=
    rotation_loses_only_oldest hname (by decide : (2 : Nat) < Text.wordLimit)
      (by decide : (0 : Nat) < 1) hempty hopen hrun
  exact ⟨start, log, hopen, hrun, shelf, hlength, hlines, hsub⟩

end Log

end EventLog
