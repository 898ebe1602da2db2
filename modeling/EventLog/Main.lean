import EventLog.Session
import Std.Time.DateTime.Timestamp

/-!
# EventLog.Main

The program: a daemon and its clients in one process.  The argument names the
file of the configuration; all other files, and the socket, are kept in memory.
Each line of the standard input is a JSON array with the arguments of a client.
The session ends with the input, or when a client stops the daemon.
-/

namespace EventLog

namespace Main

/-- The time by the system's clock. -/
def currentTime : IO Timestamp := do
  let time := (← Std.Time.Timestamp.now).toNanosecondsSinceUnixEpoch.val
  return Timestamp.ofParts (time / Timestamp.nanosPerSecond)
    (time % Timestamp.nanosPerSecond).toNat

/-- A disk with nothing on it but the configuration, if there is one to read. -/
def initialDisk (file : Option Path) : IO Disk := do
  let disk := Disk.blank (← currentTime)
  match file with
  | none => return disk
  | some path =>
    let place (bytes : ByteArray) : DiskM Unit := do
      match path.parent? with
      | some directory => Disk.makeDirectories directory
      | none => pure ()
      Disk.create path bytes
    try
      return ((place (← IO.FS.readBinFile path.text)).run disk).2
    catch _ => return disk

/-- What the environment says in place of the configuration. -/
def overrides : IO Overrides := do
  return ⟨(← IO.getEnv "SEL_STATE_DIR").map Path.mk, (← IO.getEnv "SEL_SOCKET_PATH").map Path.mk⟩

/-- No address outside can be reached. -/
def unreachable (_url _body : String) : PostOutcome :=
  .failed ("io: " ++ SystemError.networkUnreachable.message)

partial def clients (input : IO.FS.Stream) (started : Timestamp) (s : Session) : IO Unit := do
  let line ← input.getLine
  if line.isEmpty then return
  match Json.ofText? Json.depthLimit line.toList >>= Json.items? Json.text? with
  | none => IO.eprintln "not an array of arguments"; clients input started s
  | some arguments =>
    let now ← currentTime
    let outside : Outside := ⟨now, (now.second - started.second).toNat, unreachable⟩
    let s := s.withDisk { s.disk with clock := now }
    let (outcome, s) := s.client outside (← overrides) arguments ByteArray.empty
    IO.print outcome.output
    IO.eprint outcome.errors
    (← IO.getStdout).flush
    match s with
    | .working _ => clients input started s
    | .ended _ => return

/-- Runs the program with the given arguments; its exit status. -/
def run (arguments : List String) : IO UInt32 := do
  let file := arguments.head?.map Path.mk
  let started ← currentTime
  match Session.launch file (← overrides) 1 (← initialDisk file) with
  | (.error e, _) =>
    IO.eprintln ("Error: " ++ e.message)
    return 1
  | (.ok (), s) =>
    IO.println Daemon.readyLine
    clients (← IO.getStdin) started s
    return 0

end Main

end EventLog

/-- Runs the program. -/
def main (arguments : List String) : IO UInt32 := EventLog.Main.run arguments
