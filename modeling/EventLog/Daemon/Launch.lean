import EventLog.Config.Reader
import EventLog.Daemon.Basic
import EventLog.Text.Blank
import EventLog.Text.Search

/-!
# EventLog.Daemon.Launch

The daemon's own log, and the start of its program.  The program reads its
configuration, puts a mark into the log, and starts the daemon; if that fails
it says so in the log.  A client that finds no daemon looks there for the
failures behind the last mark.
-/

namespace EventLog

namespace DaemonLog

/-- A mark up to the number of the process. -/
def mark : String := "--- seld: starting (pid: "

/-- A failed start, up to the failure. -/
def failed : String := "Failed to start daemon: "

def markLine (process : Nat) : String := mark ++ Text.decimal process ++ ")\n"

def failureLine (error : StartError) : String := "ERROR " ++ failed ++ error.message ++ "\n"

/-- A list without items that are equal to the one before. -/
def withoutRepeats : List (List Char) → List (List Char)
  | [] => []
  | [line] => [line]
  | line :: other :: rest =>
    if line = other then withoutRepeats (other :: rest)
    else line :: withoutRepeats (other :: rest)

/-- Why the last start failed, by the text of the log. -/
def lastFailure? (text : List Char) : Option String := do
  let behind ← Text.behindLast? mark.toList text
  let failures := (linesOf (mark.toList ++ behind)).filterMap fun line =>
    (Text.behindFirst? failed.toList line).map Text.trimmed
  match withoutRepeats failures with
  | [] => none
  | lines => some (String.ofList (Text.joined '\n' lines))

/-- Why the last start failed, by the log of that path. -/
def failureAt? (path : Path) (disk : Disk) : Option String :=
  match disk.readText path with
  | .ok text => lastFailure? text.toList
  | .error _ => none

/-- Puts a mark into the log, and makes what is missing of it. -/
def start (path : Path) (process : Nat) : StartM Unit := do
  match path.parent? with
  | some directory => StartM.disk .io (Disk.makeDirectories directory)
  | none => pure ()
  StartM.disk .io (Disk.append path (markLine process).toByteArray)
  if path.parent?.isNone ∨ path.fileName?.isNone then throw (.logPath path)

/-- Puts a failure into the log, if it can be written. -/
def fail (path : Path) (error : StartError) (disk : Disk) : Disk :=
  ((Disk.append path (failureLine error).toByteArray).run disk).2

end DaemonLog

/-- Why the daemon's program ends before it is at work. -/
inductive LaunchError where
  | config (error : ConfigError)
  | start (error : StartError)
  deriving DecidableEq, Repr

def LaunchError.message : LaunchError → String
  | config error => error.message
  | start error => error.message

/-- What the program writes when the daemon is at work. -/
def Daemon.readyLine : String := "READY"

/-- Starts the daemon's program. -/
def Daemon.launch (file : Option Path) (overrides : Overrides) (process : Nat) (held : List Nat)
    (disk : Disk) : Except LaunchError Daemon × Disk :=
  match Config.load file overrides disk with
  | .error e => (.error (.config e), disk)
  | .ok config =>
    match (DaemonLog.start config.daemonLog process).run disk with
    | (.error e, disk) => (.error (.start e), disk)
    | (.ok (), disk) =>
      match Daemon.start config process held disk with
      | (.ok daemon, disk) => (.ok daemon, disk)
      | (.error e, disk) => (.error (.start e), DaemonLog.fail config.daemonLog e disk)

end EventLog
