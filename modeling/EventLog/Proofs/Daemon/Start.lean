import EventLog.Daemon.Basic
import EventLog.Proofs.Disk.Frame
import EventLog.Proofs.Store.Removal

/-!
# EventLog.Proofs.Daemon.Start

How a daemon starts, step by step.

* `run_disk`, `run_openStore`: a step of a start runs the one that it is made of;
* `openLock_eq`, `openSocket_eq`: opening the lock file and making the socket, in their parts;
* `startSteps_eq`, `start_eq_ok`, `startSteps_eq_ok`, `lockedSteps_eq_ok`: a start that
  succeeds, taken apart;
* `start_of_held`, `start_of_error`: a start that fails, with what it removes.
-/

namespace EventLog

open Disk (Spares)
open Step

namespace Daemon

variable {config : Config} {disk next : Disk} {d : Daemon} {process number : Nat} {held : List Nat}

/-! ## Steps of a start -/

/-- A step on the disk fails with the cause that it is blamed on. -/
theorem run_disk {α : Type} (fail : SystemError → StartError) (step : DiskM α) (disk : Disk) :
    (StartM.disk fail step).run disk =
      match step.run disk with
      | (.ok a, next) => (.ok a, next)
      | (.error cause, next) => (.error (fail cause), next) := by
  rcases h : step.run disk with ⟨_ | _, next⟩ <;>
    simp only [StartM.disk, ExceptT.run, ExceptT.mk, bind, StateT.bind] at h ⊢ <;>
    rw [h] <;> rfl

theorem run_disk_eq_ok {α : Type} {fail : SystemError → StartError} {step : DiskM α} {a : α} :
    (StartM.disk fail step).run disk = (.ok a, next) ↔ step.run disk = (.ok a, next) := by
  rw [run_disk]
  rcases step.run disk with ⟨cause | result, last⟩
  · exact iff_of_false (fun h => by cases h) fun h => by cases h
  · exact ⟨fun h => by cases h; rfl, fun h => by cases h; rfl⟩

/-- What a step on the disk keeps, it keeps within a start. -/
theorem disk_keeps {α : Type} {I : Disk → Prop} {fail : SystemError → StartError} {step : DiskM α}
    (h : Keeps I step) : Keeps I (StartM.disk fail step) := by
  intro disk hI
  have hstep := h disk hI
  rw [run_disk]
  rcases hrun : step.run disk with ⟨_ | _, next⟩ <;> rw [hrun] at hstep <;> exact hstep

/-- Listing the files of a log changes nothing. -/
theorem files_keeps {I : Disk → Prop} (config : StoreConfig) : Keeps I config.files := by
  intro disk hI
  rw [StoreConfig.files, run_bind_of_ok (run_get disk)]
  cases disk.list config.directory with
  | ok names => exact hI
  | error cause => cases cause <;> exact hI

/-- The log is opened only if records are stored. -/
theorem run_openStore (config : Config) (disk : Disk) :
    (openStore config).run disk =
      match config.sink with
      | .service _ => (.ok none, disk)
      | .journal _ =>
        match (Store.open config.store).run disk with
        | (.ok store, next) => (.ok (some store), next)
        | (.error error, next) => (.error (.storage error), next) := by
  rw [openStore]
  cases config.sink with
  | service url => rfl
  | journal unit =>
    rcases hrun : (Store.open config.store).run disk with ⟨error | store, next⟩ <;>
      simp only [ExceptT.run, ExceptT.mk, bind, StateT.bind] at hrun ⊢ <;> rw [hrun] <;> rfl

/-- Opening the log makes directories at most. -/
theorem openStore_spares (config : Config) (start : Disk) :
    Keeps (Spares start) (openStore config) := by
  have hopen : Keeps (Spares start) (Store.open config.store) :=
    Keeps.bind (StoreConfig.at_keeps (Disk.makeDirectories_spares _)) fun _ =>
      Keeps.bind (files_keeps _) fun _ => fun _ h => h
  intro disk hd
  have hstep := hopen disk hd
  rw [run_openStore]
  cases config.sink with
  | service url => exact hd
  | journal unit =>
    rcases hrun : (Store.open config.store).run disk with ⟨_ | _, next⟩ <;> rw [hrun] at hstep <;>
      exact hstep

/-- Makes the directory of the socket. -/
def makeFront (config : Config) : DiskM Unit :=
  match config.socket.parent? with
  | some directory => Disk.makeDirectories directory
  | none => pure ()

/-- Opening the lock file is: making its directory, emptying the file, looking up its number. -/
theorem openLock_eq (config : Config) : openLock config =
    makeFront config >>= fun _ => Disk.create config.lockFile .empty >>= fun _ =>
      Disk.look (·.fileNumber config.lockFile) := by
  unfold openLock makeFront
  cases config.socket.parent? <;> rfl

/-- Removes whatever was left at the socket's path. -/
def clearSocket (config : Config) : StartM Unit := do
  if (← get).has config.socket then
    StartM.disk .io (Disk.removeFile config.socket)

/-- Making the socket is: removing what was left there, and binding it. -/
theorem openSocket_eq (config : Config) : openSocket config =
    clearSocket config >>= fun _ =>
      StartM.disk (.bind config.socket) (Disk.bind config.socket) := by
  rw [openSocket, clearSocket, bind_assoc]
  refine congrArg (_ >>= ·) (funext fun disk => ?_)
  split
  · rfl
  · rw [pure_bind]

/-- The steps of a start that has its lock. -/
def lockedSteps (config : Config) (process lock : Nat) : StartM Daemon := do
  StartM.disk .io (Disk.append config.lockFile (processText process))
  let store ← openStore config
  openSocket config
  return fresh config lock store (← get)

/-- A start is: opening the lock file, asking for its lock, and all else. -/
theorem startSteps_eq (config : Config) (process : Nat) (held : List Nat) :
    startSteps config process held = StartM.disk .io (openLock config) >>= fun lock =>
      if lock ∈ held then throw .lockHeld else lockedSteps config process lock := by
  rw [startSteps]
  refine congrArg (_ >>= ·) (funext fun lock => ?_)
  by_cases hheld : lock ∈ held
  · rw [takeLock, if_pos hheld, if_pos hheld]
    rfl
  · rw [takeLock, if_neg hheld, if_neg hheld]
    rfl

/-- A start that has its lock succeeds exactly if each of its steps does. -/
theorem lockedSteps_eq_ok {lock : Nat} :
    (lockedSteps config process lock).run disk = (.ok d, next) ↔ ∃ noted store prepared,
      (Disk.append config.lockFile (processText process)).run disk = (.ok (), noted) ∧
      (openStore config).run noted = (.ok store, prepared) ∧
      (openSocket config).run prepared = (.ok (), next) ∧ d = fresh config lock store next := by
  simp only [lockedSteps, run_bind_eq_ok, run_disk_eq_ok]
  constructor
  · rintro ⟨⟨⟩, noted, hnote, store, prepared, hstore, ⟨⟩, bound, hsocket, found, last, hget, hd⟩
    cases hget
    cases hd
    exact ⟨noted, store, prepared, hnote, hstore, hsocket, rfl⟩
  · rintro ⟨noted, store, prepared, hnote, hstore, hsocket, rfl⟩
    exact ⟨⟨⟩, noted, hnote, store, prepared, hstore, ⟨⟩, next, hsocket, next, next, rfl, rfl⟩

/-- A start that succeeds, step by step. -/
theorem startSteps_eq_ok :
    (startSteps config process held).run disk = (.ok d, next) ↔ ∃ lock opened,
      (openLock config).run disk = (.ok lock, opened) ∧ lock ∉ held ∧
      (lockedSteps config process lock).run opened = (.ok d, next) := by
  simp only [startSteps_eq, run_bind_eq_ok, run_disk_eq_ok]
  refine exists_congr fun lock => exists_congr fun opened => and_congr_right fun _ => ?_
  by_cases hheld : lock ∈ held
  · rw [if_pos hheld]
    exact iff_of_false (fun h => by cases h) fun h => h.1 hheld
  · rw [if_neg hheld]
    exact (and_iff_right hheld).symm

/-! ## The end of a start -/

/-- A start succeeds exactly if its steps do. -/
theorem start_eq_ok : start config process held disk = (.ok d, next) ↔
    (startSteps config process held).run disk = (.ok d, next) := by
  unfold start
  rcases (startSteps config process held).run disk with ⟨e | other, last⟩
  · cases e <;> exact iff_of_false (fun h => by cases h) fun h => by cases h
  · exact ⟨fun h => by cases h; rfl, fun h => by cases h; rfl⟩

theorem config_of_start (h : start config process held disk = (.ok d, next)) :
    d.config = config := by
  obtain ⟨lock, opened, -, -, hsteps⟩ := startSteps_eq_ok.mp (start_eq_ok.mp h)
  obtain ⟨noted, store, prepared, -, -, -, rfl⟩ := lockedSteps_eq_ok.mp hsteps
  rfl

theorem exists_started (h : (start config process held disk).1.toOption.isSome) :
    ∃ d, start config process held disk = (.ok d, (start config process held disk).2) := by
  rcases hstart : start config process held disk with ⟨e | d, next⟩ <;> rw [hstart] at h
  · cases h
  · exact ⟨d, rfl⟩

/-- A start that finds its lock held changes nothing more. -/
theorem start_of_held {opened : Disk} (hopen : (openLock config).run disk = (.ok number, opened))
    (hheld : number ∈ held) : start config process held disk = (.error .lockHeld, opened) := by
  have hsteps : (startSteps config process held).run disk = (.error .lockHeld, opened) := by
    rw [startSteps_eq, run_bind_of_ok (run_disk_eq_ok.mpr hopen), if_pos hheld]
    rfl
  unfold start
  rw [hsteps]

/-- A step of a start that does not fail because of a lock. -/
def NeverHeld {α : Type} (step : StartM α) : Prop :=
  ∀ disk next error, step.run disk = (.error error, next) → error ≠ .lockHeld

/-- A step on the disk is never refused for a lock. -/
theorem neverHeld_disk {α : Type} {fail : SystemError → StartError}
    (hfail : ∀ cause, fail cause ≠ .lockHeld) (step : DiskM α) :
    NeverHeld (StartM.disk fail step) := by
  intro disk next error h
  rw [run_disk] at h
  rcases hrun : step.run disk with ⟨cause | a, last⟩ <;> rw [hrun] at h <;> cases h
  exact hfail cause

/-- Opening the log is never refused for a lock. -/
theorem neverHeld_openStore (config : Config) : NeverHeld (openStore config) := by
  intro disk next error h
  rw [run_openStore] at h
  cases hsink : config.sink with
  | service url => rw [hsink] at h; cases h
  | journal unit =>
    rw [hsink] at h
    rcases hrun : (Store.open config.store).run disk with ⟨cause | store, last⟩ <;>
      rw [hrun] at h <;> cases h
    exact fun h => by cases h

theorem NeverHeld.bind {α β : Type} {step : StartM α} {more : α → StartM β}
    (h : NeverHeld step) (hmore : ∀ a, NeverHeld (more a)) : NeverHeld (step >>= more) := by
  intro disk next error hrun
  rw [run_bind] at hrun
  rcases hstep : step.run disk with ⟨cause | a, last⟩ <;> rw [hstep] at hrun
  · cases hrun
    exact h disk next error hstep
  · exact hmore a last next error hrun

/-- Making the socket is never refused for a lock. -/
theorem neverHeld_openSocket (config : Config) : NeverHeld (openSocket config) := by
  rw [openSocket_eq, clearSocket]
  refine .bind (.bind (fun _ _ _ h => by cases h) fun disk => ?_) fun _ =>
    neverHeld_disk (fun _ h => by cases h) _
  split
  · exact neverHeld_disk (fun _ h => by cases h) _
  · exact fun _ _ _ h => by cases h

/-- A start that fails, but not for the lock, removes its files. -/
theorem start_of_error {error : StartError}
    (h : (startSteps config process held).run disk = (.error error, next))
    (herror : error ≠ .lockHeld) :
    start config process held disk = (.error error, removeFiles config next) := by
  unfold start
  rw [h]
  cases error with
  | lockHeld => exact absurd rfl herror
  | bind socket cause => rfl
  | logPath path => rfl
  | storage error => rfl
  | io cause => rfl

end Daemon

end EventLog
