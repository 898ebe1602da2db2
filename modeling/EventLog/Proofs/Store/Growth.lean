import EventLog.Proofs.Disk.Frame
import EventLog.Proofs.Store.Acknowledged

/-!
# EventLog.Proofs.Store.Growth

A log that grows by the line of a record, with no file moved on.

* `HasRoom.read_of_write`: a line that was written stands behind what the active file
  held, whatever the prefix of the log and its other files are;
* `Log.Ready`: the lines of a log can be read, and the next one begins a line of its own;
* `Ready.lines_of_write`, `Ready.entries_of_write`: a line that was written comes
  behind all others, and its record is read back;
* `Ready.exists_write`: a line can be written if the name of the active file is short enough.
-/

namespace EventLog

open Disk (StandsAt)
open Step StoreConfig

namespace Log

/-- A log whose lines can all be read, and whose prefix is a plain file name, so that the
active file is one of its files.  Its directory has each name once, and its active file
ends its last line. -/
structure Ready (log : Log) (lines : List (List Char)) : Prop where
  name : IsFileName log.store.config.logName
  word : log.store.config.HasWord
  directory : ∃ names, log.disk.list log.store.config.directory = .ok names ∧ names.Nodup
  lines : log.lines = .ok lines
  ended : ∀ text, log.disk.readText log.store.config.activeFile = .ok text → IsEnded text.toList

/-- The active file need not be moved on before the next line. -/
def HasRoom (log : Log) : Prop :=
  ∀ node, log.disk.stat log.store.config.activeFile = .ok node →
    log.store.config.maxFileBytes = 0 ∨ node.size < log.store.config.maxFileBytes

variable {log : Log} {lines : List (List Char)} {time : Timestamp} {record : Record}
  {id : RecordId} {disk : Disk}

/-! ## What is written to the active file -/

/-- An active file with room stays where it is; only that it cannot be looked at stops a write. -/
theorem HasRoom.run_rotateIfFull (h : log.HasRoom) :
    log.store.config.rotateIfFull.run log.disk = (.ok (), log.disk) ∨
      ∃ cause, cause ≠ .noEntry ∧ log.disk.stat log.store.config.activeFile = .error cause ∧
        log.store.config.rotateIfFull.run log.disk
          = (.error ⟨log.store.config.activeFile, cause⟩, log.disk) := by
  rw [rotateIfFull]
  split
  · exact .inl rfl
  · next hlimit =>
    rw [run_bind_of_ok (run_get log.disk)]
    cases hstat : log.disk.stat log.store.config.activeFile with
    | ok node =>
      have hlt := (h node hstat).resolve_left hlimit
      simp only [if_neg (Nat.not_le.mpr hlt)]
      exact .inl rfl
    | error cause =>
      by_cases hcause : cause = .noEntry
      · subst hcause
        exact .inl rfl
      · refine .inr ⟨cause, hcause, rfl, ?_⟩
        cases cause <;> first | exact absurd rfl hcause | rfl

/-- **A line that was written stands behind the bytes that the active file held.** -/
theorem HasRoom.read_of_write (h : log.HasRoom) {line : List Char}
    (hwrite : (log.store.config.writeLine line).run log.disk = (.ok (), disk)) :
    ∃ bytes, log.disk.Holds log.store.config.activeFile bytes ∧
      disk.read log.store.config.activeFile = .ok (bytes ++ bytesOf (line ++ ['\n'])) := by
  rcases h.run_rotateIfFull with hrotate | ⟨cause, -, -, hrotate⟩
  · rw [writeLine, run_bind_of_ok hrotate] at hwrite
    obtain ⟨number, bytes, hholds, hstat⟩ := Disk.stat_of_write (run_at_eq_ok.mp hwrite)
    exact ⟨bytes, hholds, Disk.read_of_stat hstat⟩
  · rw [writeLine, run_bind_of_error hrotate] at hwrite
    cases hwrite

/-! ## What the whole log gains -/

/-- A log that is ready stands in its directory, where its files can be read. -/
theorem Ready.standsAt (h : log.Ready lines) :
    ∃ place, StandsAt log.store.config.directory place log.disk ∧
      log.store.config.Readable (log.disk.children place) := by
  obtain ⟨names, hlist, hnames⟩ := h.directory
  obtain ⟨place, hs, -⟩ := Disk.standsAt_of_list hlist hnames
  exact ⟨place, hs, readable_of_run_allLines hs h.name (Prod.ext h.lines rfl)⟩

/-- The entries of a log that is ready are those of its lines. -/
theorem Ready.entries_eq (h : log.Ready lines) : log.entries = .ok (entriesOf lines) :=
  Log.entries_eq (Prod.ext h.lines rfl)

/-- The line of a record that was written comes behind all others. -/
theorem Ready.lines_of_write (h : log.Ready lines) (hroom : log.HasRoom)
    (hpath : record.HasSensorPath)
    (hwrite : (log.store.config.writeLine (Line.format time id record)).run log.disk
      = (.ok (), disk)) (allocator : Allocator) :
    (Log.mk { log.store with allocator } disk).lines
      = .ok (lines ++ [Line.format time id record]) := by
  obtain ⟨place, hs, hr⟩ := h.standsAt
  obtain ⟨text, htext, -, -, -, hafter⟩ :=
    writeLine_ok_of_room h.word hs h.name hr (not_isFull hs h.name hr hroom) hwrite
  have hbefore := h.lines
  rw [Log.lines, run_allLines_eq hs h.name hr, htext.linesAt_eq, Except.ok.injEq] at hbefore
  have hended := isEnded_of_readText hs h.name hr htext h.ended
  rw [Log.lines, hafter, storedLines_append_of_ended hended,
    storedLines_line (isStoredLine_format time id hpath), ← List.append_assoc, hbefore]

/-- The record is read back behind all others. -/
theorem Ready.entries_of_write (h : log.Ready lines) (hroom : log.HasRoom)
    (hyear : 0 ≤ time.date.year ∧ time.date.year ≤ 9999) (hpath : record.HasSensorPath)
    (hwrite : (log.store.config.writeLine (Line.format time id record)).run log.disk
      = (.ok (), disk)) (allocator : Allocator) :
    (Log.mk { log.store with allocator } disk).entries
      = .ok (entriesOf lines ++ [record.entry time id]) := by
  rw [Log.entries_eq (Prod.ext (h.lines_of_write hroom hpath hwrite allocator) rfl),
    entriesOf_concat hyear id hpath]

/-- A line can be written if the name of the active file is short enough. -/
theorem Ready.exists_write (h : log.Ready lines) (hroom : log.HasRoom)
    (hfits : log.store.config.logName.utf8ByteSize ≤ Disk.nameLimit) (line : List Char) :
    ∃ disk, (log.store.config.writeLine line).run log.disk = (.ok (), disk) := by
  obtain ⟨place, hs, hr⟩ := h.standsAt
  have hstat := Disk.stat_join hs h.name
  rw [if_neg (by omega)] at hstat
  have hrotate : log.store.config.rotateIfFull.run log.disk = (.ok (), log.disk) := by
    rcases hroom.run_rotateIfFull with hrun | ⟨cause, hne, herror, -⟩
    · exact hrun
    · rw [activeFile, hstat] at herror
      cases hactive : log.disk.children place log.store.config.logName with
      | none => rw [hactive] at herror; cases herror; exact absurd rfl hne
      | some node => rw [hactive] at herror; cases herror
  have hwrite := Disk.run_write_join hs h.name (· ++ bytesOf (line ++ ['\n']))
  rw [if_neg (by omega)] at hwrite
  rw [writeLine, run_bind_of_ok hrotate]
  cases hactive : log.disk.children place log.store.config.logName with
  | none =>
    rw [hactive] at hwrite
    exact ⟨_, run_at_eq_ok.mpr hwrite⟩
  | some node =>
    obtain ⟨number, text, time, rfl⟩ := (hr _ (isLogFile_logName _) node hactive).text
    rw [hactive] at hwrite
    exact ⟨_, run_at_eq_ok.mpr hwrite⟩

end Log

end EventLog
