import EventLog.Proofs.Store.Removal
import EventLog.Proofs.Store.Rotation

/-!
# EventLog.Proofs.Store.Run

Runs of operations on a log: adding, deleting, clearing and opening it again.
A run ends with an error only where the disk fails; a record that is refused is
an answer like any other.

* `run_concat`: a run and one more operation;
* `exists_info`: a log tells how many of its lines have a number;
* `append_ok`, `delete_ok`, `clear_ok`, `reopen_ok`: what an operation did that
  the disk let through.
-/

namespace EventLog

open Disk (StandsAt Turns Table)
open Step

/-- An operation on a log. -/
inductive LogOp where
  | append (time : Timestamp) (record : Record)
  | delete (id : RecordId)
  | clear (time : Timestamp)
  | reopen
  deriving DecidableEq, Repr

/-- What an operation on a log answers. -/
inductive LogAnswer where
  | appended (id : RecordId)
  | refused (error : RecordError)
  | deleted (found : Bool)
  | cleared
  | opened
  deriving DecidableEq, Repr

/-- A log that is open, and the disk that it lies on. -/
structure Log where
  store : Store
  disk : Disk

namespace Log

def «open» (config : StoreConfig) (disk : Disk) : Except StoreError Log :=
  match (Store.open config).run disk with
  | (.ok store, disk) => .ok ⟨store, disk⟩
  | (.error e, _) => .error e

/-- Performs an operation; the only errors are those of the disk. -/
def perform (log : Log) : LogOp → Except StoreError (LogAnswer × Log)
  | .append time record =>
    match log.store.append time record log.disk with
    | (.ok id, store, disk) => .ok (.appended id, ⟨store, disk⟩)
    | (.error (.invalid e), store, disk) => .ok (.refused e, ⟨store, disk⟩)
    | (.error (.write _ e), _, _) => .error e
  | .delete id =>
    match log.store.delete id log.disk with
    | (.ok found, store, disk) => .ok (.deleted found, ⟨store, disk⟩)
    | (.error e, _, _) => .error e
  | .clear time =>
    match log.store.clear time log.disk with
    | (.ok (), store, disk) => .ok (.cleared, ⟨store, disk⟩)
    | (.error e, _, _) => .error e
  | .reopen => (Log.open log.store.config log.disk).map fun log => (.opened, log)

/-- Performs operations one after the other. -/
def run (log : Log) : List LogOp → Except StoreError (List LogAnswer × Log)
  | [] => .ok ([], log)
  | op :: ops => do
    let (answer, next) ← log.perform op
    let (answers, last) ← next.run ops
    return (answer :: answers, last)

/-- All stored lines of a log, the oldest first. -/
def lines (log : Log) : Except StoreError (List (List Char)) :=
  (log.store.config.allLines.run log.disk).1

/-- All entries of a log, the oldest first. -/
def entries (log : Log) : Except StoreError (List Entry) := (log.store.entries.run log.disk).1

/-- How many records a log has, and the times of its last changes. -/
def info (log : Log) : Except StoreError StoreInfo := (log.store.info.run log.disk).1

variable {log next last : Log} {answer : LogAnswer} {answers : List LogAnswer}

/-- A run gives its answers if each step does, one behind the other. -/
theorem run_cons_eq_ok {op : LogOp} {ops : List LogOp} :
    log.run (op :: ops) = .ok (answers, last) ↔
      ∃ answer next rest, log.perform op = .ok (answer, next) ∧ next.run ops = .ok (rest, last) ∧
        answers = answer :: rest := by
  rw [run]
  cases log.perform op with
  | error e => exact ⟨fun h => (by cases h), fun ⟨_, _, _, h, _⟩ => (by cases h)⟩
  | ok first =>
    obtain ⟨answer, next⟩ := first
    cases hrest : next.run ops with
    | error e =>
      simp only [bind, Except.bind, hrest]
      constructor
      · intro h
        cases h
      · rintro ⟨_, _, _, h, hrun, _⟩
        cases h
        rw [hrest] at hrun
        cases hrun
    | ok rest =>
      simp only [bind, Except.bind, hrest]
      constructor
      · intro h
        cases h
        exact ⟨answer, next, rest.1, rfl, hrest, rfl⟩
      · rintro ⟨_, _, _, h, hrun, rfl⟩
        cases h
        rw [hrest] at hrun
        cases hrun
        rfl

/-- A run and one more operation. -/
theorem run_concat {ops : List LogOp} {op : LogOp} :
    log.run (ops ++ [op]) = .ok (answers, last) ↔
      ∃ front middle answer, log.run ops = .ok (front, middle) ∧
        middle.perform op = .ok (answer, last) ∧ answers = front ++ [answer] := by
  induction ops generalizing log answers with
  | nil =>
    rw [List.nil_append, run_cons_eq_ok]
    constructor
    · rintro ⟨answer, next, rest, hop, hrest, rfl⟩
      cases hrest
      exact ⟨[], log, answer, rfl, hop, rfl⟩
    · rintro ⟨front, middle, answer, hfront, hop, rfl⟩
      cases hfront
      exact ⟨answer, last, [], hop, rfl, rfl⟩
  | cons first ops ih =>
    rw [List.cons_append, run_cons_eq_ok]
    constructor
    · rintro ⟨answer, next, rest, hop, hrest, rfl⟩
      obtain ⟨front, middle, answer', hfront, hlast, rfl⟩ := ih.mp hrest
      exact ⟨answer :: front, middle, answer',
        run_cons_eq_ok.mpr ⟨answer, next, front, hop, hfront, rfl⟩, hlast, rfl⟩
    · rintro ⟨front, middle, answer', hfront, hlast, rfl⟩
      obtain ⟨answer, next, rest, hop, hrest, rfl⟩ := run_cons_eq_ok.mp hfront
      exact ⟨answer, next, rest ++ [answer'], hop, ih.mpr ⟨rest, middle, answer', hrest, hlast, rfl⟩,
        rfl⟩

/-- What every operation keeps stays through a run. -/
theorem run_induction {P : Log → Prop} {ops : List LogOp}
    (hstep : ∀ log op answer next, P log → log.perform op = .ok (answer, next) → P next)
    (h : P log) (hrun : log.run ops = .ok (answers, last)) : P last := by
  induction ops generalizing log answers with
  | nil =>
    cases hrun
    exact h
  | cons op ops ih =>
    obtain ⟨answer, next, rest, hop, hrest, -⟩ := run_cons_eq_ok.mp hrun
    exact ih (hstep log op answer next h hop) hrest

theorem entries_eq {lines : List (List Char)} {disk : Disk}
    (h : log.store.config.allLines.run log.disk = (.ok lines, disk)) :
    log.entries = .ok (entriesOf lines) := by
  obtain ⟨files, middle, hfiles, hlines⟩ := run_bind_eq_ok.mp h
  rw [entries, Store.entries, run_bind_of_ok hfiles, run_bind_of_ok hlines]
  rfl

/-- A run that gives answers starts from a log and ends with one. -/
theorem exists_run {config : StoreConfig} {disk : Disk} {ops : List LogOp}
    (h : (Log.open config disk >>= fun log => (log.run ops).map (·.1)) = .ok answers) :
    ∃ start last, Log.open config disk = .ok start ∧ start.run ops = .ok (answers, last) := by
  cases hopen : Log.open config disk with
  | error e =>
    rw [hopen] at h
    cases h
  | ok start =>
    cases hrun : start.run ops with
    | error e =>
      simp only [hopen, bind, Except.bind, hrun] at h
      cases h
    | ok found =>
      simp only [hopen, bind, Except.bind, hrun] at h
      cases h
      exact ⟨start, found.2, rfl, hrun⟩

/-! ## What a log tells of itself -/

section Info

open StoreConfig

variable {place : Place}

/-- How many lines have a number. -/
def numberedIn (lines : List (List Char)) : Nat :=
  (lines.filter fun line => (Line.recordId? line).isSome).length

/-- What a log tells of itself is the number of its lines with a number, and two times. -/
theorem run_info (hs : StandsAt log.store.config.directory place log.disk)
    (hlog : IsFileName log.store.config.logName)
    (hr : log.store.config.Readable (log.disk.children place)) {lines : List (List Char)}
    (hlines : log.lines = .ok lines) :
    log.store.info.run log.disk = (do
      let lastAdd ← modifiedTime log.store.config.activeFile
      let lastErase ← modifiedTime log.store.config.eraseMarker
      return ⟨numberedIn lines, lastAdd, lastErase⟩ : StoreM StoreInfo).run log.disk := by
  rw [Log.lines, run_allLines hs hlog hr, Except.ok.injEq] at hlines
  have hperm : ((log.store.config.logNames log.disk place).flatMap fun name =>
      linesAt (log.disk.children place name)).Perm lines := by
    rw [← hlines]
    exact (List.reverse_perm _).symm.flatMap_right _
  rw [Store.info, run_bind_of_ok (run_files hs),
    run_bind_of_ok (run_linesIn hs hlog hr fun _ hname => hname), numberedIn,
    ← (hperm.filter _).length_eq]

/-- The information can be had wherever the files can be read and the name is short enough. -/
theorem exists_info (hs : StandsAt log.store.config.directory place log.disk)
    (hlog : IsFileName log.store.config.logName)
    (hfits : log.store.config.logName.utf8ByteSize ≤ Disk.nameLimit)
    (hr : log.store.config.Readable (log.disk.children place)) {lines : List (List Char)}
    (hlines : log.lines = .ok lines) {lastErase : Option Timestamp}
    (hmarker : ((modifiedTime log.store.config.eraseMarker).run log.disk).1 = .ok lastErase) :
    ∃ lastAdd, log.info = .ok ⟨numberedIn lines, lastAdd, lastErase⟩ := by
  obtain ⟨lastAdd, hlastAdd⟩ := run_modifiedTime_join hs hlog hfits
  have hlastErase : (modifiedTime log.store.config.eraseMarker).run log.disk
      = (.ok lastErase, log.disk) := by
    rw [run_modifiedTime] at hmarker ⊢
    split at hmarker <;> cases hmarker <;> simp_all
  refine ⟨lastAdd, ?_⟩
  rw [Log.info, run_info hs hlog hr hlines, activeFile, run_bind_of_ok hlastAdd,
    run_bind_of_ok hlastErase]
  rfl

end Info

/-! ## Single operations -/

/-- An append that was not refused stores the record under the number that the allocator
hands out. -/
theorem append_ok {time : Timestamp} {record : Record}
    (h : log.perform (.append time record) = .ok (answer, next)) :
    (∃ e, Store.checkRecord record = .error e ∧ answer = .refused e ∧ next = log) ∨
      Store.checkRecord record = .ok () ∧
        answer = .appended log.store.allocator.allocate.1 ∧
        next.store = { log.store with allocator := log.store.allocator.allocate.2 } ∧
        (log.store.config.writeLine
          (Line.format time log.store.allocator.allocate.1 record)).run log.disk
            = (.ok (), next.disk) := by
  unfold perform at h
  dsimp only at h
  rw [Store.append] at h
  cases hcheck : Store.checkRecord record with
  | error e =>
    simp only [hcheck] at h
    cases h
    exact .inl ⟨e, rfl, rfl, rfl⟩
  | ok _ =>
    simp only [hcheck] at h
    rcases hwrite : (log.store.config.writeLine
      (Line.format time log.store.allocator.allocate.1 record)).run log.disk with ⟨e | _, disk⟩
    · rw [hwrite] at h
      cases h
    · rw [hwrite] at h
      cases h
      exact .inr ⟨rfl, rfl, rfl, rfl⟩

/-- A deletion releases the number if it found the record, and does nothing otherwise. -/
theorem delete_ok {place : Place} (hs : StandsAt log.store.config.directory place log.disk)
    {id : RecordId} (h : log.perform (.delete id) = .ok (answer, next)) :
    ∃ found, answer = .deleted found ∧
      (log.store.config.deleteFrom id ((log.store.config.logNames log.disk place).map
        log.store.config.directory.join)).run log.disk = (.ok found, next.disk) ∧
      next.store = if found then
        { log.store with allocator := (log.store.allocator.release id).2 } else log.store := by
  unfold perform at h
  dsimp only at h
  rw [Store.delete, run_bind_of_ok (StoreConfig.run_files hs)] at h
  rcases hdelete : (log.store.config.deleteFrom id ((log.store.config.logNames log.disk
    place).map log.store.config.directory.join)).run log.disk with ⟨e | found, disk⟩
  · rw [hdelete] at h
    cases h
  · rw [hdelete] at h
    cases found <;> cases h <;> exact ⟨_, rfl, rfl, rfl⟩

/-- Clearing is answered by nothing but that it was done. -/
theorem clear_ok {time : Timestamp} (h : log.perform (.clear time) = .ok (answer, next)) :
    answer = .cleared ∧ log.store.clear time log.disk = (.ok (), next.store, next.disk) := by
  unfold perform at h
  dsimp only at h
  split at h
  · next hclear =>
    cases h
    exact ⟨rfl, hclear⟩
  · cases h

/-- Opening again makes the store afresh from the disk. -/
theorem reopen_ok (h : log.perform .reopen = .ok (answer, next)) :
    answer = .opened ∧ (Store.open log.store.config).run log.disk = (.ok next.store, next.disk) := by
  unfold perform at h
  dsimp only at h
  rw [Log.open] at h
  split at h
  · next hopen =>
    cases h
    exact ⟨rfl, hopen⟩
  · cases h

end Log

end EventLog
