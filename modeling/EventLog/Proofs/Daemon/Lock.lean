import EventLog.Proofs.Daemon.Start
import EventLog.Proofs.Disk.Beside

/-!
# EventLog.Proofs.Daemon.Lock

The lock file beside a socket, through the steps of a start.

* `place_ne`: the lock file does not stand where the socket stands, unless both have one path;
* `openLock_keeps`, `removeSocket_keeps`, `openSocket_keeps`: the lock file stays where it is;
* `AtWork`: what a daemon at work has on the disk, and has from its start on (`atWork_of_start`);
* `start_beside`: what a start leaves of that while another daemon has the socket.

The lock file is emptied before anybody asks whether it is locked, so a start that is turned
away still empties the file of the daemon at work.  If the socket has the path of its own lock
file, the start does not even get to ask: it fails at the socket, and takes it away.
-/

namespace EventLog

open Disk (Spares DiffersAt)
open Step

/-- The lock file goes with the socket, however a daemon is set up else. -/
theorem Config.lockFile_eq {config other : Config} (h : config.socket = other.socket) :
    config.lockFile = other.lockFile := by
  rw [lockFile, lockFile, h]

namespace Daemon

variable {config : Config} {disk next : Disk} {d : Daemon} {process number : Nat} {held : List Nat}

/-! ## The lock file beside the socket -/

/-- The lock file and the socket stand at different places. -/
theorem place_ne (hne : config.lockFile ≠ config.socket) {place other : Place} {node : Node}
    (hsocket : disk.find config.socket = .ok (place, node)) (hn : node.isDirectory = false)
    (hlock : disk.locate config.lockFile = .ok other) : other ≠ place := by
  obtain ⟨hlocate, -⟩ := Disk.find_eq_ok hsocket
  obtain ⟨front, name, hends⟩ := Path.exists_endsIn (Disk.namesDirectory_of_find hsocket hn)
  have hbeside : config.lockFile.EndsIn front (Path.stem name ++ ".pid".toList) :=
    hends.beside (by decide) (by decide)
  obtain ⟨directory, hwalk, -, rfl⟩ := Disk.locate_endsIn hends hlocate
  obtain ⟨same, hsame, -, rfl⟩ := Disk.locate_endsIn hbeside hlock
  -- both are below the directory that the segments in front lead to
  rw [hwalk] at hsame
  cases hsame
  intro hplace
  have hname : Path.stem name ++ ".pid".toList = name :=
    String.ofList_inj.mp (Disk.concat_inj.mp hplace)
  rw [hname] at hbeside
  exact hne (hbeside.eq hends)

/-- Removing the socket leaves the lock file. -/
theorem removeSocket_keeps (hne : config.lockFile ≠ config.socket) {node : Node}
    (hn : node.isDirectory = false) :
    Keeps (fun disk => disk.stat config.lockFile = .ok node) (Disk.removeFile config.socket) := by
  intro disk hstat
  rcases Disk.run_removeFile config.socket disk with
    ⟨cause, hrun⟩ | ⟨place, found, hfind, hfound, hrun⟩
  · rw [hrun]
    exact hstat
  · rw [hrun]
    obtain ⟨other, hother⟩ := Disk.stat_eq_ok_iff.mp hstat
    have hdiffers := (Disk.differsAt_erase (Disk.find_eq_ok hfind).2 hfound).stamp place.dropLast
    exact Disk.stat_eq_ok_iff.mpr ⟨other, hdiffers.find_eq hother hn
      (place_ne hne hfind hfound (Disk.find_eq_ok hother).1)⟩

/-- So does making it, in place of whatever was left there. -/
theorem openSocket_keeps (hne : config.lockFile ≠ config.socket) {node : Node}
    (hn : node.isDirectory = false) :
    Keeps (fun disk => disk.stat config.lockFile = .ok node) (openSocket config) := by
  have hbind : Keeps (fun disk => disk.stat config.lockFile = .ok node)
      (Disk.bind config.socket) := by
    intro disk hstat
    rcases Disk.run_bind_socket config.socket disk with ⟨cause, hrun⟩ | ⟨next, hrun, hspares, -⟩
    · rw [hrun]
      exact hstat
    · rw [hrun]
      exact hspares.stat_eq hstat hn
  rw [openSocket_eq, clearSocket]
  refine Keeps.bind (Keeps.bind (fun _ h => h) fun found => ?_) fun _ => disk_keeps hbind
  split
  · exact disk_keeps (removeSocket_keeps hne hn)
  · exact Keeps.pure _

/-- Behind a start the socket is there. -/
theorem openSocket_ok (h : (openSocket config).run disk = (.ok (), next)) :
    next.stat config.socket = .ok .socket := by
  rw [openSocket_eq, run_bind_eq_ok] at h
  obtain ⟨-, cleared, -, h⟩ := h
  rcases Disk.run_bind_socket config.socket cleared with ⟨cause, hrun⟩ | ⟨bound, hrun, -, hstat⟩ <;>
    rw [run_disk, hrun] at h <;> cases h
  exact hstat

/-- Opening the lock file leaves it, if it is there. -/
theorem openLock_keeps (config : Config) (number : Nat) :
    Keeps (fun disk => disk.fileNumber config.lockFile = .ok number) (openLock config) := by
  have hfront : Keeps (fun disk => disk.fileNumber config.lockFile = .ok number)
      (makeFront config) := by
    unfold makeFront
    split
    · exact Disk.keeps_of_spares (fun _ _ h => h.fileNumber_eq) fun _ =>
        Disk.makeDirectories_spares _
    · exact Keeps.pure _
  rw [openLock_eq]
  exact Keeps.bind hfront fun _ => Keeps.bind (Disk.write_keeps _ _ _) fun _ => Disk.look_keeps _

/-- An opened lock file is empty, and the one that is there. -/
theorem openLock_ok (h : (openLock config).run disk = (.ok number, next)) :
    ∃ time, next.stat config.lockFile = .ok (.file number .empty time) := by
  rw [openLock_eq] at h
  obtain ⟨-, front, -, h⟩ := run_bind_eq_ok.mp h
  obtain ⟨⟨⟩, created, hcreate, hlook⟩ := run_bind_eq_ok.mp h
  obtain ⟨hnumber, rfl⟩ := Disk.run_look_eq_ok.mp hlook
  obtain ⟨found, -, -, hstat⟩ := Disk.stat_of_write hcreate
  obtain ⟨bytes, time, hfile⟩ := Disk.fileNumber_eq_ok_iff.mp hnumber
  rw [hstat] at hfile
  cases hfile
  exact ⟨_, hstat⟩

/-! ## A daemon at work -/

/-- What a daemon at work has on the disk: its socket, and under the lock file's path the
file that it keeps locked, unless the socket has that path. -/
structure AtWork (d : Daemon) (disk : Disk) : Prop where
  socket : disk.stat d.config.socket = .ok .socket
  lock : d.config.lockFile ≠ d.config.socket → disk.fileNumber d.config.lockFile = .ok d.lock

/-- A start leaves the number of its process in the lock file. -/
theorem lockFile_of_start (hne : config.lockFile ≠ config.socket)
    (h : start config process held disk = (.ok d, next)) :
    ∃ time, next.stat config.lockFile = .ok (.file d.lock (processText process) time) := by
  obtain ⟨lock, opened, hopen, -, hsteps⟩ := startSteps_eq_ok.mp (start_eq_ok.mp h)
  obtain ⟨noted, store, prepared, hnote, hstore, hsocket, rfl⟩ := lockedSteps_eq_ok.mp hsteps
  obtain ⟨time, hempty⟩ := openLock_ok hopen
  obtain ⟨place, hfind⟩ := Disk.stat_eq_ok_iff.mp hempty
  have hnoted : noted.stat config.lockFile =
      .ok (.file lock (processText process) opened.clock) := by
    rw [Disk.append, Disk.run_write_of_find hfind] at hnote
    cases hnote
    rw [Disk.stat_eq_ok_iff]
    exact ⟨place, by simpa using Disk.find_put_of_find hfind rfl rfl⟩
  have hspares := openStore_spares config noted noted (Spares.refl noted)
  rw [hstore] at hspares
  have hnext := openSocket_keeps hne rfl prepared (hspares.stat_eq hnoted rfl)
  rw [hsocket] at hnext
  exact ⟨opened.clock, hnext⟩

/-- A daemon that has started is at work. -/
theorem atWork_of_start (h : start config process held disk = (.ok d, next)) : d.AtWork next := by
  obtain ⟨lock, opened, hopen, -, hsteps⟩ := startSteps_eq_ok.mp (start_eq_ok.mp h)
  obtain ⟨noted, store, prepared, -, -, hsocket, rfl⟩ := lockedSteps_eq_ok.mp hsteps
  refine ⟨openSocket_ok hsocket, fun hne => ?_⟩
  obtain ⟨time, hstat⟩ := lockFile_of_start hne h
  exact Disk.fileNumber_eq_ok_iff.mpr ⟨_, time, hstat⟩

/-! ## A start beside a daemon at work -/

/-- On both disks the same paths lead to a file of that number, and it is the same. -/
def SameFile (number : Nat) (disk next : Disk) : Prop := ∀ path bytes time,
  disk.stat path = .ok (.file number bytes time) ↔ next.stat path = .ok (.file number bytes time)

/-- If the socket is there, so is its directory. -/
theorem run_makeFront (h : disk.stat config.socket = .ok .socket) :
    (makeFront config).run disk = (.ok (), disk) := by
  obtain ⟨place, hfind⟩ := Disk.stat_eq_ok_iff.mp h
  obtain ⟨hlocate, -⟩ := Disk.find_eq_ok hfind
  obtain ⟨front, name, hends⟩ := Path.exists_endsIn (Disk.namesDirectory_of_find hfind rfl)
  unfold makeFront
  rw [hends.parent?_eq]
  rcases Disk.locate_parent hends hlocate with hempty | ⟨directory, hparent, hd⟩
  · simp only [Disk.makeDirectories, Disk.makeDirectoriesWithin, if_pos hempty]
    rfl
  · exact Disk.run_makeDirectories_of_locate hparent hd

/-- Opening a lock file that is there empties it. -/
theorem run_openLock {place : Place} {bytes : ByteArray} {time : Timestamp}
    (hsocket : disk.stat config.socket = .ok .socket)
    (hlock : disk.find config.lockFile = .ok (place, .file number bytes time)) :
    (openLock config).run disk = (.ok number, disk.put place (.file number .empty disk.clock)) := by
  have hnumber : (disk.put place (.file number .empty disk.clock)).fileNumber config.lockFile =
      .ok number := Disk.fileNumber_of_find (Disk.find_put_of_find hlock rfl rfl)
  rw [openLock_eq, run_bind_of_ok (run_makeFront hsocket), Disk.create,
    run_bind_of_ok (Disk.run_write_of_find hlock _)]
  exact Disk.run_look_eq_ok.mpr ⟨hnumber, rfl⟩

/-- A start that finds the socket under the lock file's path takes it away. -/
theorem start_of_socket (hsame : config.lockFile = config.socket) {place : Place}
    (hsocket : disk.find config.socket = .ok (place, .socket)) :
    start config process held disk =
      (.error (.io .noDevice), (disk.erase place).stamp place.dropLast) := by
  obtain ⟨hlocate, hnode⟩ := Disk.find_eq_ok hsocket
  have hcreate : (Disk.create config.lockFile .empty).run disk = (.error .noDevice, disk) := by
    have hlook := Disk.run_look (·.locate config.socket) disk
    simp only [hlocate] at hlook
    rw [hsame, Disk.create, Disk.write, run_bind_of_ok (run_get disk), run_bind_of_ok hlook]
    simp only [hnode, Disk.namesDirectory_of_find hsocket rfl]
    rfl
  have hsteps : (startSteps config process held).run disk = (.error (.io .noDevice), disk) := by
    have hfront := run_makeFront (Disk.stat_eq_ok_iff.mpr ⟨place, hsocket⟩)
    rw [startSteps_eq, openLock_eq, run_bind, run_disk, run_bind_of_ok hfront,
      run_bind_of_error hcreate]
  have hremoved : discardFile config.socket disk = (disk.erase place).stamp place.dropLast := by
    rw [discardFile, Disk.run_removeFile_of_find hsocket rfl]
  have hgone : discardFile config.socket ((disk.erase place).stamp place.dropLast) =
      (disk.erase place).stamp place.dropLast := by
    rw [discardFile]
    rcases Disk.run_removeFile config.socket ((disk.erase place).stamp place.dropLast) with
      ⟨cause, hrun⟩ | ⟨_, _, hfind, -⟩
    · rw [hrun]
    · rw [Disk.find_erase_of_find hsocket rfl] at hfind
      cases hfind
  unfold start
  rw [hsteps]
  simp only [removeFiles, hsame, hremoved, hgone]

/-- While a daemon is at work, no other one starts with its socket, however it is set up.
The start leaves the socket, the lock file and all other files; it empties the lock file.
But if the socket has the path of its own lock file, the start takes the socket away. -/
theorem start_beside (hwork : d.AtWork disk) (hheld : d.lock ∈ held)
    (hsocket : config.socket = d.config.socket) (process : Nat) :
    (config.lockFile ≠ config.socket →
      ∃ next, start config process held disk = (.error .lockHeld, next) ∧
        next.stat config.socket = .ok .socket ∧
        next.stat config.lockFile = .ok (.file d.lock .empty disk.clock) ∧
        ∀ number ≠ d.lock, SameFile number disk next) ∧
    (config.lockFile = config.socket →
      ∃ next, start config process held disk = (.error (.io .noDevice), next) ∧
        next.stat config.socket = .error .noEntry ∧ ∀ number, SameFile number disk next) := by
  have hstat : disk.stat config.socket = .ok .socket := hsocket ▸ hwork.socket
  obtain ⟨place, hfind⟩ := Disk.stat_eq_ok_iff.mp hstat
  have hlockFile : config.lockFile = d.config.lockFile := Config.lockFile_eq hsocket
  constructor
  · intro hne
    obtain ⟨bytes, time, hlock⟩ := Disk.fileNumber_eq_ok_iff.mp
      (hlockFile ▸ hwork.lock (by rwa [← hlockFile, ← hsocket]) :
        disk.fileNumber config.lockFile = .ok d.lock)
    obtain ⟨other, hother⟩ := Disk.stat_eq_ok_iff.mp hlock
    have hnode := (Disk.find_eq_ok hother).2
    have hdiffers : DiffersAt other disk (disk.put other (.file d.lock .empty disk.clock)) :=
      Disk.differsAt_put hnode rfl rfl
    refine ⟨_, start_of_held (run_openLock hstat hother) hheld, ?_, ?_, ?_⟩
    · exact Disk.stat_eq_ok_iff.mpr ⟨place, hdiffers.find_eq hfind rfl
        (place_ne hne hfind rfl (Disk.find_eq_ok hother).1).symm⟩
    · exact Disk.stat_eq_ok_iff.mpr ⟨other, Disk.find_put_of_find hother rfl rfl⟩
    · intro number hnumber path bytes time
      refine hdiffers.stat_iff rfl (fun h => ?_) fun h => ?_
      · rw [hnode] at h
        cases h
        exact hnumber rfl
      · rw [Disk.get?_put_self] at h
        cases h
        exact hnumber rfl
  · intro hsame
    have hnode := (Disk.find_eq_ok hfind).2
    have hdiffers := (Disk.differsAt_erase hnode rfl).stamp place.dropLast
    refine ⟨_, start_of_socket hsame hfind, ?_, fun number path bytes time => ?_⟩
    · rw [Disk.stat, Disk.find_erase_of_find hfind rfl]
      rfl
    · refine hdiffers.stat_iff rfl (fun h => ?_) fun h => ?_
      · rw [hnode] at h
        cases h
      · rw [Disk.get?_stamp_of_not_isDirectory _ _ rfl, Disk.get?_erase_self] at h
        cases h

/-- A daemon whose socket has the path of its own lock file. -/
def sharing : Config := { Config.default with socket := ⟨"/run/sel/seld.pid"⟩ }

/-- A start beside a daemon that was just started. -/
theorem start_beside_started :
    (∃ d disk next, start .default 7 [] (Disk.blank .epoch) = (.ok d, disk) ∧ d.AtWork disk ∧
      start .default 8 [d.lock] disk = (.error .lockHeld, next) ∧
        next.stat Config.default.socket = .ok .socket ∧
        next.stat Config.default.lockFile = .ok (.file d.lock .empty disk.clock) ∧
        ∀ number ≠ d.lock, SameFile number disk next) ∧
    ∃ d disk next, start sharing 7 [] (Disk.blank .epoch) = (.ok d, disk) ∧ d.AtWork disk ∧
      start sharing 8 [d.lock] disk = (.error (.io .noDevice), next) ∧
        next.stat sharing.socket = .error .noEntry ∧ ∀ number, SameFile number disk next := by
  constructor
  · have hstarts : (start .default 7 [] (Disk.blank .epoch)).1.toOption.isSome := by decide +kernel
    obtain ⟨d, hd⟩ := exists_started hstarts
    have hwork := atWork_of_start hd
    obtain ⟨next, h⟩ := (start_beside hwork (List.mem_singleton_self _)
      (congrArg Config.socket (config_of_start hd).symm) 8).1 (by decide)
    exact ⟨d, _, next, hd, hwork, h⟩
  · have hstarts : (start sharing 7 [] (Disk.blank .epoch)).1.toOption.isSome := by decide +kernel
    obtain ⟨d, hd⟩ := exists_started hstarts
    have hwork := atWork_of_start hd
    obtain ⟨next, h⟩ := (start_beside hwork (List.mem_singleton_self _)
      (congrArg Config.socket (config_of_start hd).symm) 8).2 (by decide)
    exact ⟨d, _, next, hd, hwork, h⟩

/-- The lock file of a daemon at work has the number of its process, until another start empties
it; and a socket that has the path of its own lock file is gone behind the other start. -/
theorem second_start_empties_lock_file :
    (let first := start .default 7 [] (Disk.blank .epoch)
      let second := start .default 8 [0] first.2
      first.1.toOption.map (·.lock) = some 0 ∧ second.1.toOption.isNone ∧
        first.2.read Config.default.lockFile = .ok (processText 7) ∧
        second.2.read Config.default.lockFile = .ok .empty) ∧
    let first := start sharing 7 [] (Disk.blank .epoch)
    let second := start sharing 8 [0] first.2
    first.1.toOption.map (·.lock) = some 0 ∧ second.1.toOption.isNone ∧
      first.2.has sharing.socket = true ∧ second.2.has sharing.socket = false := by
  decide +kernel

end Daemon

end EventLog
