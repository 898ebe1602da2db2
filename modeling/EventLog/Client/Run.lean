import EventLog.Client.Arguments
import EventLog.Client.Report
import EventLog.Daemon.Launch

/-!
# EventLog.Client.Run

A run of the client: it finds out what is asked for, sends one request, and
prints what came back.  A run is done before anything is sent, or it asks: it
names a socket and the bytes for it, and says how it ends for every answer.

* The socket has to be there before signals and properties are read.
* Without a socket the client says why the daemon did not start, if the
  daemon's log knows.
-/

namespace EventLog

/-- Why the client fails. -/
inductive ClientError where
  | config (error : ConfigError)
  | notRunning (socket : Path)
  | startFailed (reason : String)
  | message (error : MessageError)
  | refused (kind : RefusalKind) (reason : String)
  | unexpected
  | connection (cause : SystemError)
  | unreadable (source : String)
  | invalidJson (subject : String)
  | notFound (id : RecordId)
  deriving DecidableEq, Repr

def ClientError.text : ClientError → String
  | config error => error.message
  | notRunning socket => "Daemon not running (no socket at " ++ socket.text ++ ")"
  | startFailed reason => "Daemon failed to start: " ++ reason
  | message error => "Protocol error: " ++ error.message
  | refused kind reason => "Request rejected (" ++ kind.name ++ "): " ++ reason
  | unexpected => "Unexpected response from daemon"
  | connection cause => "IO error: " ++ cause.message
  | unreadable source => "reading " ++ source
  | invalidJson subject => "invalid " ++ subject ++ " JSON"
  | notFound id => "record " ++ Text.decimal id.toNat ++ " not found"

/-- What a run leaves: its exit status and what it printed. -/
structure Outcome where
  status : Nat
  output : String
  errors : String
  deriving DecidableEq, Repr

/-- How the bytes for a socket are answered: they cannot be sent, or bytes come
back on a connection that then stays open or not. -/
inductive Answered where
  | unconnected (cause : SystemError)
  | received (staysOpen : Bool) (bytes : List UInt8)

/-- A run that is done, or that asks. -/
inductive ClientRun where
  | done (outcome : Outcome)
  | ask (socket : Path) (bytes : List UInt8) (finish : Answered → Outcome)

namespace Outcome

/-- A run that printed a result. -/
def success (output : String) : Outcome := ⟨0, output, ""⟩

def failure (error : ClientError) : Outcome := ⟨1, "", "Error: " ++ error.text ++ "\n"⟩

/-- A run whose arguments make no sense. -/
def misuse : Outcome := ⟨2, "", "error: invalid arguments\n"⟩

def ofResult : Except ClientError String → Outcome
  | .ok output => success output
  | .error e => failure e

end Outcome

namespace Command

/-- The text of a JSON argument: the rest of it behind a mark names where the
text is, a dash for the standard input. -/
def jsonText? (input : ByteArray) (disk : Disk) (argument : String) : Except ClientError String :=
  match argument.toList with
  | '@' :: ['-'] =>
    match String.fromUTF8? input with
    | some text => .ok text
    | none => .error (.unreadable "stdin")
  | '@' :: path =>
    match disk.readText ⟨String.ofList path⟩ with
    | .ok text => .ok text
    | .error _ => .error (.unreadable (String.ofList path))
  | _ => .ok argument

def request? (input : ByteArray) (disk : Disk) : Command → Except ClientError Request
  | add message sensor data assert generator =>
    .ok (.add message sensor data assert generator)
  | addOem message data recordType => .ok (.addOem message data recordType)
  | clear => .ok .clear
  | delete id => .ok (.delete id)
  | info => .ok .info
  | list => .ok .entries
  | publish signal => do
    match Signal.ofText? (← jsonText? input disk signal) with
    | some signal => return .publish signal
    | none => throw (.invalidJson "signal")
  | setProperties path interface properties => do
    match Value.propertiesOfText? (← jsonText? input disk properties) with
    | some properties => return .setProperties path interface properties
    | none => throw (.invalidJson "properties")
  | setReply reply => .ok (.setReply reply)
  | status => .ok .status
  | shutdown => .ok .shutdown

/-- What to print about a response to a command. -/
def report (format : OutputFormat) : Command → Response → Except ClientError String
  | _, .refused kind reason => .error (.refused kind reason)
  | add .., .recordId id => .ok (Report.ofAdded id)
  | addOem .., .recordId id => .ok (Report.ofAdded id)
  | clear, .ok => .ok (Report.lines ["Cleared all records"])
  | delete id, .recordId found =>
    if found = .invalid then .error (.notFound id)
    else .ok (Report.lines ["Deleted record " ++ Text.decimal found.toNat])
  | info, .info i => .ok (Report.ofInfo format i)
  | list, .entries entries => .ok (Report.ofEntries format entries)
  | publish _, .published delivered records => .ok (Report.ofPublished format delivered records)
  | setProperties .., .ok => .ok (Report.lines ["Properties set"])
  | setReply _, .ok => .ok (Report.lines ["IPMI response set"])
  | status, .status s => .ok (Report.ofStatus format s)
  | shutdown, .ok => .ok (Report.lines ["Daemon stopping"])
  | shutdown, .shuttingDown => .ok (Report.lines ["Daemon stopping"])
  | _, _ => .error .unexpected

end Command

def Answered.response? : Answered → Except ClientError Response
  | .unconnected cause => .error (.connection cause)
  | .received staysOpen bytes =>
    match Response.read staysOpen bytes with
    | .ok response => .ok response
    | .error e => .error (.message e)

namespace ClientRun

def fail (error : ClientError) : ClientRun := .done (.failure error)

def configure (overrides : Overrides) (disk : Disk) (i : Invocation) :
    Except ClientError Config :=
  match Config.load i.config overrides disk with
  | .error e => .error (.config e)
  | .ok config => .ok { config with socket := i.socket.getD config.socket }

/-- The request of an invocation, and the socket for it. -/
def prepare (overrides : Overrides) (input : ByteArray) (disk : Disk) (i : Invocation) :
    Except ClientError (Path × Request) := do
  let config ← configure overrides disk i
  if disk.has config.socket then
    return (config.socket, ← i.command.request? input disk)
  else
    match DaemonLog.failureAt? config.daemonLog disk with
    | some reason => throw (.startFailed reason)
    | none => throw (.notRunning config.socket)

def ofInvocation (overrides : Overrides) (input : ByteArray) (disk : Disk) (i : Invocation) :
    ClientRun :=
  match prepare overrides input disk i with
  | .error e => fail e
  | .ok (socket, request) =>
    match disk.connect socket with
    | .error cause => fail (.connection cause)
    | .ok () =>
      match request.write with
      | .error e => fail (.message e)
      | .ok bytes => .ask socket bytes fun answered =>
          .ofResult (answered.response? >>= i.command.report i.format)

def versionLine : String := "selctl " ++ programVersion ++ "\n"

/-- The line that tells how the client is called. -/
def helpLine : String :=
  "Usage: selctl [--config FILE] [--socket PATH] [--output text|json] COMMAND [ARGUMENTS]\n"

def start (arguments : List String) (overrides : Overrides) (input : ByteArray) (disk : Disk) :
    ClientRun :=
  match Asked.ofArguments arguments with
  | .wrong => .done .misuse
  | .version => .done (.success versionLine)
  | .help => .done (.success helpLine)
  | .run invocation => ofInvocation overrides input disk invocation

end ClientRun

end EventLog
