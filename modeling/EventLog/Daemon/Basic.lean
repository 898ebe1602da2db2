import EventLog.Config.Basic
import EventLog.Peer.Registry
import EventLog.Pipeline
import EventLog.Signal.Bus

/-!
# EventLog.Daemon.Basic

The daemon: its state while it is at work, how it starts and how it stops.

A start takes five steps: the lock file beside the socket is opened, locked
and given the number of the process, then the log is opened, and at last the
socket is made, in place of one that was left behind.  A lock belongs to a
file, whatever its name, and ends with the process.

* Opening the lock file empties it, before anybody asks whether it is locked.
* A start that fails removes the socket and the lock file, unless the lock was
  held: then they belong to another daemon.
-/

namespace EventLog

/-- A daemon at work.  `lock` is the number of the file that it keeps locked,
`queue` that of the queue from which its monitors get signals. -/
structure Daemon where
  config : Config
  lock : Nat
  pipeline : Pipeline
  monitors : Monitors
  registry : Registry
  bus : SignalBus
  queue : Nat
  isStopping : Bool

/-- Why a daemon does not start. -/
inductive StartError where
  | lockHeld
  | bind (socket : Path) (cause : SystemError)
  | logPath (path : Path)
  | storage (error : StoreError)
  | io (cause : SystemError)
  deriving DecidableEq, Repr

def StartError.message : StartError → String
  | lockHeld => "Failed to acquire lock: daemon already running?"
  | bind socket cause => "Failed to bind socket at " ++ socket.text ++ ": " ++ cause.message
  | logPath path => "Daemon log path has no file name: " ++ path.text
  | storage error => "Storage error: " ++ error.message
  | io cause => "IO error: " ++ cause.message

/-- A step of a start; what a failed step did stays done. -/
abbrev StartM := ExceptT StartError (StateM Disk)

def StartM.disk {α : Type} (fail : SystemError → StartError) (step : DiskM α) : StartM α :=
  ExceptT.mk do
    match ← step.run with
    | .ok a => return .ok a
    | .error cause => return .error (fail cause)

namespace Daemon

/-! ## Starting -/

/-- Opens the lock file, empty; its number. -/
def openLock (config : Config) : DiskM Nat := do
  match config.socket.parent? with
  | some directory => Disk.makeDirectories directory
  | none => pure ()
  Disk.create config.lockFile ByteArray.empty
  Disk.look (·.fileNumber config.lockFile)

/-- Takes the lock on a file, unless it is held. -/
def takeLock (held : List Nat) (file : Nat) : Except StartError Unit :=
  if file ∈ held then .error .lockHeld else .ok ()

/-- The content of the lock file of a process. -/
def processText (process : Nat) : ByteArray := (Text.decimal process ++ "\n").toByteArray

/-- The log, if records are stored. -/
def openStore (config : Config) : StartM (Option Store) :=
  match config.sink with
  | .service _ => return none
  | .journal _ => ExceptT.mk do
    match ← (Store.open config.store).run with
    | .ok store => return .ok (some store)
    | .error error => return .error (.storage error)

/-- Makes the socket, in place of whatever was left there. -/
def openSocket (config : Config) : StartM Unit := do
  if (← get).has config.socket then
    StartM.disk .io (Disk.removeFile config.socket)
  StartM.disk (.bind config.socket) (Disk.bind config.socket)

def subscriber : String := "monitors"

/-- A daemon that has seen nothing yet. -/
def fresh (config : Config) (lock : Nat) (store : Option Store) (disk : Disk) : Daemon :=
  let monitors := Monitors.fresh config.monitors
  let (queue, bus) := SignalBus.empty.subscribe subscriber monitors.patterns
  { config, lock, monitors, bus, queue
    pipeline := ⟨store, disk, []⟩
    registry := Registry.empty
    isStopping := false }

/-- The steps of a start, by a process of the given number while the given
files are locked by others. -/
def startSteps (config : Config) (process : Nat) (held : List Nat) : StartM Daemon := do
  let lock ← StartM.disk .io (openLock config)
  match takeLock held lock with
  | .ok () => pure ()
  | .error e => throw e
  StartM.disk .io (Disk.append config.lockFile (processText process))
  let store ← openStore config
  openSocket config
  return fresh config lock store (← get)

/-- Removes a file if it can be removed. -/
def discardFile (path : Path) (disk : Disk) : Disk := ((Disk.removeFile path).run disk).2

def removeFiles (config : Config) (disk : Disk) : Disk :=
  discardFile config.lockFile (discardFile config.socket disk)

def start (config : Config) (process : Nat) (held : List Nat) (disk : Disk) :
    Except StartError Daemon × Disk :=
  match (startSteps config process held).run disk with
  | (.ok daemon, disk) => (.ok daemon, disk)
  | (.error .lockHeld, disk) => (.error .lockHeld, disk)
  | (.error e, disk) => (.error e, removeFiles config disk)

/-! ## At work -/

def disk (d : Daemon) : Disk := d.pipeline.disk

/-- The daemon after somebody else worked on the disk. -/
def withDisk (d : Daemon) (disk : Disk) : Daemon :=
  { d with pipeline := { d.pipeline with disk } }

/-- The disk after the daemon stopped. -/
def stop (d : Daemon) : Disk := removeFiles d.config d.disk

end Daemon

end EventLog
