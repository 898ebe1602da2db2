import EventLog.Proofs.Daemon.Lock
import Mathlib.Data.Fintype.Basic
import Mathlib.Logic.Relation

/-!
# EventLog.Proofs.Daemon.Rivals

Processes that start, serve and stop with one socket, a step at a time and in any order.

* `Stage.advance`: the next step of a process; taken without a break, the steps are a start
  (`leads_start`) and a stop (`leads_stop`);
* `Rivals`: the processes, the disk that they share, and the lock files that one of them removed;
* `Reachable`: whatever can come of it, also if processes are killed and others use the disk;
* `Orderly`: the invariant, kept by every step (`Orderly.advance`).

A lock is on the file that was opened, whatever becomes of its name.  So two processes never
lock one file (`one_holder`), and of those that lock a file which nobody removed there is one
at most.  But a daemon that stops removes the lock file while it still has the lock, and a
process that opened that file before may get the lock later: `two_daemons_serve`.
-/

namespace EventLog

open Daemon Step

/-- Where a process is between its start and its end. -/
inductive Stage where
  /-- It has not opened the lock file. -/
  | waiting
  /-- It has opened a lock file, and has no lock. -/
  | opened (lock : Nat)
  /-- It has the lock. -/
  | locked (lock : Nat)
  /-- Its number is in the lock file. -/
  | noted (lock : Nat)
  /-- Its log is open. -/
  | prepared (lock : Nat) (store : Option Store)
  /-- Its socket is there. -/
  | serving (daemon : Daemon)
  /-- It stops, and has removed the socket. -/
  | closing (lock : Nat)
  /-- It has removed the lock file too. -/
  | leaving (lock : Nat)
  /-- A step of its start failed; it has no lock any more. -/
  | failing (error : StartError)
  /-- It has removed the socket behind a failure. -/
  | cleaning (error : StartError)
  /-- It has ended, perhaps because it did not start. -/
  | ended (error : Option StartError)

namespace Stage

variable {config : Config} {process number : Nat} {held : List Nat} {stage : Stage}
  {disk next : Disk}

/-- The file that a process has locked. -/
def lock? : Stage → Option Nat
  | locked lock | noted lock | prepared lock _ | closing lock | leaving lock => some lock
  | serving daemon => some daemon.lock
  | _ => none

/-- The lock file that a process has open. -/
def file? : Stage → Option Nat
  | opened lock => some lock
  | stage => stage.lock?

/-- Whether a process is between making its socket and its end. -/
def isServing : Stage → Bool
  | serving _ | closing _ | leaving _ => true
  | _ => false

/-- Whether the next step of a process removes the lock file. -/
def removesLock : Stage → Bool
  | closing _ | cleaning _ => true
  | _ => false

/-! ## Steps of a process -/

/-- Where a process is behind a step of a start. -/
def behind {α : Type} (step : StartM α) (reached : α → Disk → Stage) (disk : Disk) : Stage × Disk :=
  match step.run disk with
  | (.ok a, disk) => (reached a disk, disk)
  | (.error error, disk) => (failing error, disk)

/-- Puts the number of a process at the start of the file that it has open, if that is still
there under the lock file's path. -/
def note (config : Config) (process lock : Nat) : DiskM Unit := do
  let text := processText process
  if (← get).fileNumber config.lockFile = .ok lock then
    Disk.write config.lockFile fun old => text ++ old.extract text.size old.size

/-- The next step of a process, while the given files are locked.  One that serves begins to
stop, so the scheduler says how long it serves. -/
def advance (config : Config) (process : Nat) (held : List Nat) : Stage → Disk → Stage × Disk
  | waiting => behind (StartM.disk .io (openLock config)) fun lock _ => opened lock
  | opened lock => fun disk =>
    match takeLock held lock with
    | .ok () => (locked lock, disk)
    | .error error => (ended (some error), disk)
  | locked lock => behind (StartM.disk .io (note config process lock)) fun _ _ => noted lock
  | noted lock => behind (openStore config) fun store _ => prepared lock store
  | prepared lock store => behind (openSocket config) fun _ disk =>
    serving (fresh config lock store disk)
  | serving daemon => fun disk => (closing daemon.lock, discardFile config.socket disk)
  | closing lock => fun disk => (leaving lock, discardFile config.lockFile disk)
  | leaving _ => fun disk => (ended none, disk)
  | failing error => fun disk => (cleaning error, discardFile config.socket disk)
  | cleaning error => fun disk => (ended (some error), discardFile config.lockFile disk)
  | ended error => fun disk => (ended error, disk)

/-- A process has its file open while it has it locked. -/
theorem file?_of_lock? (h : stage.lock? = some number) : stage.file? = some number := by
  cases stage <;> first | exact h | cases h

/-- A process holds a number behind a step only if the step was done. -/
theorem behind_eq_some {α : Type} {step : StartM α} {reached : α → Disk → Stage}
    {p : Stage → Option Nat} (hfailing : ∀ error, p (failing error) = none)
    (h : p (behind step reached disk).1 = some number) :
    ∃ a, step.run disk = (.ok a, (behind step reached disk).2) ∧
      p (reached a (behind step reached disk).2) = some number := by
  rw [behind] at h ⊢
  rcases hrun : step.run disk with ⟨error | a, next⟩ <;> rw [hrun] at h
  · rw [hfailing] at h
    cases h
  · exact ⟨a, rfl, h⟩

/-- What a step keeps of the disk still holds where the process stands behind it. -/
theorem behind_keeps {α : Type} {I : Disk → Prop} {step : StartM α} (h : Keeps I step)
    (reached : α → Disk → Stage) (hdisk : I disk) : I (behind step reached disk).2 := by
  have hstep := h disk hdisk
  rw [behind]
  rcases hrun : step.run disk with ⟨error | a, next⟩ <;> rw [hrun] at hstep <;> exact hstep

/-- A file that is locked after a step was so before, or was free. -/
theorem lock?_advance (h : (stage.advance config process held disk).1.lock? = some number) :
    stage.lock? = some number ∨ number ∉ held := by
  cases stage with
  | waiting =>
    obtain ⟨lock, -, hlock⟩ := behind_eq_some (p := lock?) (fun _ => rfl) h
    cases hlock
  | opened lock =>
    rw [advance, takeLock] at h
    by_cases hheld : lock ∈ held
    · rw [if_pos hheld] at h
      cases h
    · rw [if_neg hheld] at h
      cases h
      exact .inr hheld
  | locked lock =>
    obtain ⟨-, -, hlock⟩ := behind_eq_some (p := lock?) (fun _ => rfl) h
    exact .inl hlock
  | noted lock =>
    obtain ⟨store, -, hlock⟩ := behind_eq_some (p := lock?) (fun _ => rfl) h
    exact .inl hlock
  | prepared lock store =>
    obtain ⟨-, -, hlock⟩ := behind_eq_some (p := lock?) (fun _ => rfl) h
    exact .inl hlock
  | serving daemon => exact .inl h
  | closing lock => exact .inl h
  | leaving lock => cases h
  | failing error => cases h
  | cleaning error => cases h
  | ended error => cases h

/-- A file that is open after a step was so before, or is the lock file that is there. -/
theorem file?_advance (h : (stage.advance config process held disk).1.file? = some number) :
    stage.file? = some number ∨
      (stage.advance config process held disk).2.fileNumber config.lockFile = .ok number := by
  cases stage with
  | waiting =>
    obtain ⟨lock, hrun, hfile⟩ := behind_eq_some (p := file?) (fun _ => rfl) h
    cases hfile
    obtain ⟨time, hstat⟩ := openLock_ok (run_disk_eq_ok.mp hrun)
    exact .inr (Disk.fileNumber_eq_ok_iff.mpr ⟨_, time, hstat⟩)
  | opened lock =>
    rw [advance, takeLock] at h
    by_cases hheld : lock ∈ held
    · rw [if_pos hheld] at h
      cases h
    · rw [if_neg hheld] at h
      exact .inl h
  | locked lock =>
    obtain ⟨-, -, hfile⟩ := behind_eq_some (p := file?) (fun _ => rfl) h
    exact .inl hfile
  | noted lock =>
    obtain ⟨store, -, hfile⟩ := behind_eq_some (p := file?) (fun _ => rfl) h
    exact .inl hfile
  | prepared lock store =>
    obtain ⟨-, -, hfile⟩ := behind_eq_some (p := file?) (fun _ => rfl) h
    exact .inl hfile
  | serving daemon => exact .inl h
  | closing lock => exact .inl h
  | leaving lock => cases h
  | failing error => cases h
  | cleaning error => cases h
  | ended error => cases h

/-- Noting the process leaves the lock file at its place. -/
theorem note_keeps (config : Config) (process lock number : Nat) :
    Keeps (fun disk => disk.fileNumber config.lockFile = .ok number)
      (note config process lock) := by
  refine Keeps.bind (fun _ h => h) fun disk => ?_
  split
  · exact Disk.write_keeps _ _ _
  · exact Keeps.pure _

/-- The lock file that is there stays, unless the step removes it. -/
theorem fileNumber_advance (hne : config.lockFile ≠ config.socket)
    (hstage : stage.removesLock = false) (h : disk.fileNumber config.lockFile = .ok number) :
    (stage.advance config process held disk).2.fileNumber config.lockFile = .ok number := by
  have hdiscard : (discardFile config.socket disk).fileNumber config.lockFile = .ok number :=
    Disk.keeps_fileNumber (fun _ hn => removeSocket_keeps hne hn) number disk h
  cases stage with
  | waiting => exact behind_keeps (disk_keeps (openLock_keeps config number)) _ h
  | opened lock =>
    rw [advance]
    split <;> exact h
  | locked lock => exact behind_keeps (disk_keeps (note_keeps config process lock number)) _ h
  | noted lock =>
    exact behind_keeps (Disk.keeps_of_spares (fun _ _ h => h.fileNumber_eq)
      (openStore_spares config)) _ h
  | prepared lock store =>
    exact behind_keeps (Disk.keeps_fileNumber (fun _ hn => openSocket_keeps hne hn) number) _ h
  | serving daemon => exact hdiscard
  | closing lock => cases hstage
  | leaving lock => exact h
  | failing error => exact hdiscard
  | cleaning error => cases hstage
  | ended error => exact h

/-! ## Steps without a break -/

/-- The steps of a process that nobody interrupts lead from one state to another. -/
def Leads (config : Config) (process : Nat) (held : List Nat) :
    Stage × Disk → Stage × Disk → Prop :=
  Relation.ReflTransGen fun p q => p.1.advance config process held p.2 = q

theorem Leads.of_advance {p q last : Stage × Disk} (h : p.1.advance config process held p.2 = q)
    (hrest : Leads config process held q last) : Leads config process held p last :=
  Relation.ReflTransGen.head h hrest

theorem leads_failing (error : StartError) (disk : Disk) :
    Leads config process held (failing error, disk) (ended (some error), removeFiles config disk) :=
  .of_advance rfl (.of_advance rfl .refl)

/-- In the file that it has just opened a process puts its number at the end, too. -/
theorem run_note_of_empty {lock : Nat} {time : Timestamp}
    (h : disk.stat config.lockFile = .ok (.file lock .empty time)) :
    (note config process lock).run disk =
      (Disk.append config.lockFile (processText process)).run disk := by
  obtain ⟨place, hfind⟩ := Disk.stat_eq_ok_iff.mp h
  have hnumber := Disk.fileNumber_of_find hfind
  have hempty : ByteArray.empty.extract (processText process).size ByteArray.empty.size = .empty :=
    ByteArray.extract_eq_empty_iff.mpr (by simp)
  rw [note, run_bind_of_ok (run_get disk), if_pos hnumber, Disk.append,
    Disk.run_write_of_find hfind, Disk.run_write_of_find hfind, hempty]
  simp

/-- Where a start ends. -/
def outcome : Except StartError Daemon × Disk → Stage × Disk
  | (.ok daemon, disk) => (serving daemon, disk)
  | (.error error, disk) => (ended (some error), disk)

/-- A start whose steps fail, but not for the lock, ends step by step as it does at once. -/
theorem leads_of_error {error : StartError}
    (h : (startSteps config process held).run disk = (.error error, next))
    (herror : error ≠ .lockHeld) : Leads config process held (failing error, next)
      (outcome (Daemon.start config process held disk)) := by
  rw [start_of_error h herror]
  exact leads_failing error next

/-- From its lock on, a start does step by step what it does at once. -/
theorem leads_locked {lock : Nat} {opened : Disk} {time : Timestamp}
    (hempty : opened.stat config.lockFile = .ok (.file lock .empty time))
    (hlocked : (startSteps config process held).run disk =
      (lockedSteps config process lock).run opened) :
    Leads config process held (Stage.locked lock, opened)
      (outcome (Daemon.start config process held disk)) := by
  obtain ⟨place, hfind⟩ := Disk.stat_eq_ok_iff.mp hempty
  obtain ⟨written, happend⟩ : ∃ written,
      (Disk.append config.lockFile (processText process)).run opened = (.ok (), written) :=
    ⟨_, Disk.run_write_of_find hfind _⟩
  rw [lockedSteps, run_bind_of_ok (run_disk_eq_ok.mpr happend)] at hlocked
  refine .of_advance (q := (Stage.noted lock, written)) ?_ ?_
  · rw [advance, behind, run_disk, run_note_of_empty hempty, happend]
  rcases hstore : (openStore config).run written with ⟨error | store, ready⟩
  · rw [run_bind_of_error hstore] at hlocked
    refine .of_advance ?_ (leads_of_error hlocked (neverHeld_openStore config _ _ _ hstore))
    rw [advance, behind, hstore]
  rw [run_bind_of_ok hstore] at hlocked
  refine .of_advance (q := (Stage.prepared lock store, ready)) ?_ ?_
  · rw [advance, behind, hstore]
  rcases hsocket : (openSocket config).run ready with ⟨error | _, bound⟩
  · rw [run_bind_of_error hsocket] at hlocked
    refine .of_advance ?_ (leads_of_error hlocked (neverHeld_openSocket config _ _ _ hsocket))
    rw [advance, behind, hsocket]
  rw [run_bind_of_ok hsocket] at hlocked
  rw [start_eq_ok.mpr hlocked]
  refine .of_advance ?_ .refl
  rw [advance, behind, hsocket]
  rfl

/-- The steps of a process that nobody interrupts are those of a start. -/
theorem leads_start (config : Config) (process : Nat) (held : List Nat) (disk : Disk) :
    Leads config process held (waiting, disk)
      (outcome (Daemon.start config process held disk)) := by
  rcases hopen : (openLock config).run disk with ⟨cause | lock, opened⟩
  · have hsteps : (startSteps config process held).run disk = (.error (.io cause), opened) := by
      rw [startSteps_eq, run_bind, run_disk, hopen]
    refine .of_advance ?_ (leads_of_error hsteps fun h => by cases h)
    rw [advance, behind, run_disk, hopen]
  refine .of_advance (q := (Stage.opened lock, opened)) ?_ ?_
  · rw [advance, behind, run_disk, hopen]
  by_cases hheld : lock ∈ held
  · rw [start_of_held hopen hheld]
    refine .of_advance ?_ .refl
    rw [advance, takeLock, if_pos hheld]
    rfl
  refine .of_advance (q := (Stage.locked lock, opened)) ?_ ?_
  · rw [advance, takeLock, if_neg hheld]
  obtain ⟨time, hempty⟩ := openLock_ok hopen
  refine leads_locked hempty ?_
  rw [startSteps_eq, run_bind_of_ok (run_disk_eq_ok.mpr hopen), if_neg hheld]

/-- From there on they are those of a stop. -/
theorem leads_stop (daemon : Daemon) (process : Nat) (held : List Nat) :
    Leads daemon.config process held (serving daemon, daemon.disk) (ended none, daemon.stop) :=
  .of_advance rfl (.of_advance rfl (.of_advance rfl .refl))

end Stage

/-! ## Processes with one socket -/

/-- Processes that share a disk.  `removed` are the lock files that one of them removed. -/
structure Rivals (count : Nat) where
  disk : Disk
  stage : Fin count → Stage
  removed : List Nat

namespace Rivals

variable {count : Nat} {configs : Fin count → Config} {s : Rivals count} {i j : Fin count}
  {number : Nat}

/-- None of the processes has started. -/
def start (count : Nat) (disk : Disk) : Rivals count := ⟨disk, fun _ => .waiting, []⟩

/-- The files that are locked. -/
def held (s : Rivals count) : List Nat :=
  (List.finRange count).filterMap fun i => (s.stage i).lock?

/-- The state with one process elsewhere on its way. -/
def moved (s : Rivals count) (i : Fin count) (stage : Stage) : Rivals count :=
  { s with stage := Function.update s.stage i stage }

/-- One process takes its next step; its number is its position. -/
def advance (configs : Fin count → Config) (s : Rivals count) (i : Fin count) : Rivals count :=
  let (stage, disk) := (s.stage i).advance (configs i) i s.held s.disk
  let gone := (s.disk.fileNumber (configs i).lockFile).toOption.toList
  { s.moved i stage with
    disk
    removed := if (s.stage i).removesLock then gone ++ s.removed else s.removed }

/-- The processes take steps in a given order. -/
def run (configs : Fin count → Config) (s : Rivals count) (order : List (Fin count)) :
    Rivals count :=
  order.foldl (advance configs) s

/-- What can come of processes: they take steps in any order, are killed at any time, and
others use the disk but leave the lock file. -/
inductive Reachable (configs : Fin count → Config) : Rivals count → Prop
  | start (disk : Disk) : Reachable configs (start count disk)
  | advance {s : Rivals count} (i : Fin count) (h : Reachable configs s) :
    Reachable configs (s.advance configs i)
  | killed {s : Rivals count} (i : Fin count) (h : Reachable configs s) :
    Reachable configs (s.moved i (.ended none))
  | elsewhere {s : Rivals count} {disk : Disk} (h : Reachable configs s)
    (hleaves : ∀ i number, s.disk.fileNumber (configs i).lockFile = .ok number →
      disk.fileNumber (configs i).lockFile = .ok number) :
    Reachable configs { s with disk }

/-- Every order of steps is one of the runs. -/
theorem reachable_run (h : Reachable configs s) (order : List (Fin count)) :
    Reachable configs (s.run configs order) := by
  induction order generalizing s with
  | nil => exact h
  | cons i order ih => exact ih (h.advance i)

theorem mem_held : number ∈ s.held ↔ ∃ i, (s.stage i).lock? = some number := by
  simp [held]

@[simp] theorem stage_moved_self (stage : Stage) : (s.moved i stage).stage i = stage :=
  Function.update_self ..

@[simp] theorem stage_moved_of_ne (h : j ≠ i) (stage : Stage) :
    (s.moved i stage).stage j = s.stage j := Function.update_of_ne h ..

theorem stage_advance_self : (s.advance configs i).stage i =
    ((s.stage i).advance (configs i) i s.held s.disk).1 := stage_moved_self _

theorem stage_advance_of_ne (h : j ≠ i) : (s.advance configs i).stage j = s.stage j :=
  stage_moved_of_ne h _

/-- A file that is locked after a step was so before, or was free. -/
theorem lock?_of_advance (h : ((s.advance configs i).stage j).lock? = some number) :
    (s.stage j).lock? = some number ∨ j = i ∧ number ∉ s.held := by
  by_cases hj : j = i
  · subst hj
    rw [stage_advance_self] at h
    exact (Stage.lock?_advance h).imp_right fun hfree => ⟨rfl, hfree⟩
  · rw [stage_advance_of_ne hj] at h
    exact .inl h

/-- A lock file that is open after a step was so before, or is there. -/
theorem file?_of_advance (h : ((s.advance configs i).stage j).file? = some number) :
    (s.stage j).file? = some number ∨
      (s.advance configs i).disk.fileNumber (configs j).lockFile = .ok number := by
  by_cases hj : j = i
  · subst hj
    rw [stage_advance_self] at h
    exact Stage.file?_advance h
  · rw [stage_advance_of_ne hj] at h
    exact .inl h

/-! ## The invariant -/

/-- No file is locked twice, and every lock file that is open was removed or is there. -/
structure Orderly (configs : Fin count → Config) (s : Rivals count) : Prop where
  unique : ∀ i j number, (s.stage i).lock? = some number → (s.stage j).lock? = some number → i = j
  present : ∀ i number, (s.stage i).file? = some number →
    number ∈ s.removed ∨ s.disk.fileNumber (configs i).lockFile = .ok number

theorem orderly_start (configs : Fin count → Config) (disk : Disk) :
    Orderly configs (start count disk) :=
  ⟨fun _ _ _ h => (by cases h), fun _ _ h => (by cases h)⟩

/-- The end of a process keeps the locks in order, wherever it stood. -/
theorem Orderly.killed (h : Orderly configs s) (i : Fin count) :
    Orderly configs (s.moved i (.ended none)) := by
  have hstage {j : Fin count} {p : Stage → Option Nat} {number : Nat}
      (hended : p (.ended none) = none)
      (h : p ((s.moved i (.ended none)).stage j) = some number) : p (s.stage j) = some number := by
    by_cases hj : j = i
    · subst hj
      rw [stage_moved_self, hended] at h
      cases h
    · rwa [stage_moved_of_ne hj] at h
  exact ⟨fun j k number hj hk => h.unique j k number (hstage rfl hj) (hstage rfl hk),
    fun j number hj => h.present j number (hstage (p := Stage.file?) rfl hj)⟩

/-- A lock file that was removed or is there is so after every step. -/
theorem present_advance (hsocket : ∀ i j, (configs i).socket = (configs j).socket)
    (hne : ∀ i, (configs i).lockFile ≠ (configs i).socket) (i : Fin count)
    (h : number ∈ s.removed ∨ s.disk.fileNumber (configs j).lockFile = .ok number) :
    number ∈ (s.advance configs i).removed ∨
      (s.advance configs i).disk.fileNumber (configs j).lockFile = .ok number := by
  rw [Config.lockFile_eq (hsocket j i)] at h ⊢
  cases hremoves : (s.stage i).removesLock with
  | true =>
    left
    rw [advance]
    simp only [hremoves, if_true, List.mem_append]
    refine h.symm.imp_left fun hthere => ?_
    simp [hthere, Except.toOption]
  | false =>
    have hremoved : (s.advance configs i).removed = s.removed := by
      rw [advance]
      simp only [hremoves, Bool.false_eq_true, if_false]
    rw [hremoved]
    exact h.imp_right (Stage.fileNumber_advance (hne i) hremoves)

/-- A step of a process keeps the locks in order, if all have one socket beside its lock file. -/
theorem Orderly.advance (h : Orderly configs s)
    (hsocket : ∀ i j, (configs i).socket = (configs j).socket)
    (hne : ∀ i, (configs i).lockFile ≠ (configs i).socket) (i : Fin count) :
    Orderly configs (s.advance configs i) where
  unique j k number hj hk := by
    have hold {l : Fin count} (hl : (s.stage l).lock? = some number) (hfree : number ∉ s.held) :
        False := hfree (mem_held.mpr ⟨l, hl⟩)
    rcases lock?_of_advance hj with hj₀ | ⟨hji, hfree⟩
    · rcases lock?_of_advance hk with hk₀ | ⟨-, hfree⟩
      · exact h.unique j k number hj₀ hk₀
      · exact (hold hj₀ hfree).elim
    · rcases lock?_of_advance hk with hk₀ | ⟨hki, -⟩
      · exact (hold hk₀ hfree).elim
      · exact hji.trans hki.symm
  present j number hj := by
    rcases file?_of_advance hj with hold | hthere
    · exact present_advance hsocket hne i (h.present j number hold)
    · exact .inr hthere

/-- The locks are in order in every run. -/
theorem orderly_of_reachable (hsocket : ∀ i j, (configs i).socket = (configs j).socket)
    (hne : ∀ i, (configs i).lockFile ≠ (configs i).socket) (h : Reachable configs s) :
    Orderly configs s := by
  induction h with
  | start disk => exact orderly_start configs disk
  | advance i _ ih => exact ih.advance hsocket hne i
  | killed i _ ih => exact ih.killed i
  | elsewhere _ hleaves ih =>
    exact ⟨ih.unique, fun j number hj => (ih.present j number hj).imp_right (hleaves j number)⟩

/-- Whatever comes of processes with one socket, no file is locked by two of them, and of those
that lock a file which none of them removed there is one at most: that file is there. -/
theorem one_holder (hsocket : ∀ i j, (configs i).socket = (configs j).socket)
    (hne : ∀ i, (configs i).lockFile ≠ (configs i).socket) (h : Reachable configs s) :
    (∀ i j number, (s.stage i).lock? = some number → (s.stage j).lock? = some number → i = j) ∧
    (∀ i number, (s.stage i).lock? = some number → number ∉ s.removed →
      s.disk.fileNumber (configs i).lockFile = .ok number) ∧
    ∀ i j number other, (s.stage i).lock? = some number → (s.stage j).lock? = some other →
      number ∉ s.removed → other ∉ s.removed → i = j := by
  have horderly := orderly_of_reachable hsocket hne h
  have hthere (i : Fin count) (number : Nat) (hi : (s.stage i).lock? = some number)
      (hkept : number ∉ s.removed) : s.disk.fileNumber (configs i).lockFile = .ok number :=
    (horderly.present i number (Stage.file?_of_lock? hi)).resolve_left hkept
  refine ⟨horderly.unique, hthere, fun i j number other hi hj hkept hother => ?_⟩
  have hfirst := hthere i number hi hkept
  rw [Config.lockFile_eq (hsocket i j), hthere j other hj hother, Except.ok.injEq] at hfirst
  exact horderly.unique i j number hi (hfirst ▸ hj)

/-- Two processes, of which the first one serves and the second one is turned away. -/
theorem one_holder_of_two :
    let s := (start 2 (Disk.blank .epoch)).run (fun _ => .default) [0, 0, 0, 0, 0, 1, 1]
    ((s.stage 0).isServing = true ∧ (s.stage 0).lock? = some 0 ∧ s.removed = []) ∧
      ∀ i j number other, (s.stage i).lock? = some number → (s.stage j).lock? = some other →
        i = j := by
  refine ⟨by decide +kernel, fun i j number other hi hj => ?_⟩
  have hreachable : Reachable (fun _ => .default) ((start 2 (Disk.blank .epoch)).run
      (fun _ => .default) [0, 0, 0, 0, 0, 1, 1]) :=
    reachable_run (.start (Disk.blank .epoch)) [0, 0, 0, 0, 0, 1, 1]
  have hkept : ((start 2 (Disk.blank .epoch)).run (fun _ => .default)
      [0, 0, 0, 0, 0, 1, 1]).removed = [] := by decide +kernel
  exact (one_holder (fun _ _ => rfl) (fun _ => by decide) hreachable).2.2 i j number other hi hj
    (hkept ▸ List.not_mem_nil) (hkept ▸ List.not_mem_nil)

/-- Two processes with one socket have a lock and serve at once: a daemon that stops has
removed the lock file, so another one starts before it ends; and a process that had opened
the file before gets the lock when it ends, while a third one makes a new file. -/
theorem two_daemons_serve :
    (let s := (start 2 (Disk.blank .epoch)).run (fun _ => .default)
        [0, 0, 0, 0, 0, 0, 0, 1, 1, 1, 1, 1]
      ∀ i, (s.stage i).isServing = true ∧ (s.stage i).lock?.isSome = true) ∧
    let s := (start 3 (Disk.blank .epoch)).run (fun _ => .default)
      [0, 0, 0, 0, 0, 1, 0, 0, 0, 1, 1, 1, 1, 2, 2, 2, 2, 2]
    ∀ i ≠ 0, (s.stage i).isServing = true ∧ (s.stage i).lock?.isSome = true := by
  decide +kernel

end Rivals

end EventLog
