import EventLog.Client.Run
import EventLog.Daemon.Serve

/-!
# EventLog.Session

A daemon and its clients on one disk.  The daemon's program is started, clients
come one after the other, and it ends when it is interrupted or when a client
asks for it.  What comes after the end finds the disk that the daemon left.

* A client reaches the daemon through whatever path leads to the place of the
  daemon's socket.
* A daemon that was asked to stop still answers that client.
-/

namespace EventLog

namespace Disk

/-- Whether two paths lead to one place. -/
def samePlace (disk : Disk) (path other : Path) : Bool :=
  match disk.locate path, disk.locate other with
  | .ok place, .ok otherPlace => place == otherPlace
  | _, _ => false

end Disk

namespace ClientRun

def alone : ClientRun → Outcome
  | done outcome => outcome
  | ask _ _ finish => finish (.unconnected .connectionRefused)

/-- The end of a run beside a daemon. -/
def beside (outside : Outside) (d : Daemon) : ClientRun → Outcome × Daemon
  | done outcome => (outcome, d)
  | ask socket bytes finish =>
    if d.disk.samePlace socket d.config.socket then
      let served := d.serve outside false bytes
      (finish (.received false served.sent), served.daemon)
    else (finish (.unconnected .connectionRefused), d)

end ClientRun

/-- A daemon's program at work, or ended with the disk that is left. -/
inductive Session where
  | working (daemon : Daemon)
  | ended (disk : Disk)

namespace Session

def disk : Session → Disk
  | working d => d.disk
  | ended disk => disk

def withDisk (disk : Disk) : Session → Session
  | working d => working (d.withDisk disk)
  | ended _ => ended disk

/-- Starts the daemon's program; without the daemon the session has ended. -/
def launch (file : Option Path) (overrides : Overrides) (process : Nat) (disk : Disk) :
    Except LaunchError Unit × Session :=
  match Daemon.launch file overrides process [] disk with
  | (.ok daemon, _) => (.ok (), working daemon)
  | (.error e, disk) => (.error e, ended disk)

def interrupt : Session → Session
  | working d => ended d.stop
  | ended disk => ended disk

/-- Stops the daemon if it was asked to stop. -/
def settle : Session → Session
  | working d => if d.isStopping then ended d.stop else working d
  | ended disk => ended disk

def client (outside : Outside) (overrides : Overrides) (arguments : List String)
    (input : ByteArray) (s : Session) : Outcome × Session :=
  let run := ClientRun.start arguments overrides input s.disk
  match s with
  | working d =>
    let (outcome, d) := run.beside outside d
    (outcome, settle (working d))
  | ended disk => (run.alone, ended disk)

end Session

end EventLog
