import EventLog.Daemon.Basic
import EventLog.Message.Codec
import EventLog.Sink.Service

/-!
# EventLog.Daemon.Serve

How a daemon answers.  Every connection brings one request and gets one
response.  A published signal goes over the bus to the monitors, and what they
have to report goes down the pipeline, before the response is sent.

* A request that cannot be read gets no response, and neither does a client
  that says nothing.
* A response that is too long is not sent, although the request was carried out.
-/

namespace EventLog

/-- What is around a daemon: the time, the seconds that it has been at work, and
how an address answers a body that is sent there. -/
structure Outside where
  now : Timestamp
  uptime : Nat
  post : (url body : String) → PostOutcome

/-- Why a connection fails. -/
inductive ServeError where
  | timeout
  | connection (error : MessageError)
  deriving DecidableEq, Repr

def ServeError.message : ServeError → String
  | timeout => "Request timeout"
  | connection error => "Protocol error: " ++ error.message

/-- What became of a connection, and the bytes that were sent. -/
structure Served where
  result : Except ServeError Unit
  sent : List UInt8
  daemon : Daemon

namespace Response

def refusalKind : PipelineError → RefusalKind
  | .eventData (.invalidSensorPath _) => .invalidSensorPath
  | .eventData _ => .eventDataTooLarge
  | .unsupported _ => .unsupported
  | .storage _ => .storage
  | .sink _ => .internal

def ofResult {α : Type} (respond : α → Response) : Except PipelineError α → Response
  | .ok a => respond a
  | .error e => .refused (refusalKind e) e.message

end Response

namespace Daemon

/-- What is around the pipeline.  The journal takes everything. -/
def surroundings (d : Daemon) (outside : Outside) : Surroundings where
  now := outside.now
  emit entry :=
    match d.config.sink with
    | .journal _ => .ok ()
    | .service url => Service.emit url outside.post entry

def run {α : Type} (d : Daemon) (step : PipelineM α) : Except PipelineError α × Daemon :=
  let (result, pipeline) := step.run d.pipeline
  (result, { d with pipeline })

/-- Runs a step of the pipeline for a client. -/
def request {α : Type} (d : Daemon) (respond : α → Response) (step : PipelineM α) :
    Response × Daemon :=
  let (result, d) := d.run step
  (Response.ofResult respond result, d)

/-- Takes what a monitor has to report; the number of a record that was stored. -/
def report (outside : Outside) (d : Daemon) (notice : Notice) : Option RecordId × Daemon :=
  let (result, d) := d.run (Pipeline.submit (d.surroundings outside) notice)
  match result with
  | .ok (some id) => (if id = .unassigned then none else some id, d)
  | _ => (none, d)

/-- Takes all that there is to report, and the numbers of the records that were stored. -/
def reportAll (outside : Outside) (d : Daemon) : List Notice → List RecordId × Daemon
  | [] => ([], d)
  | notice :: rest =>
    let (id, d) := d.report outside notice
    let (ids, d) := reportAll outside d rest
    (id.toList ++ ids, d)

/-- Shows a signal to the monitors. -/
def observe (outside : Outside) (d : Daemon) (signal : Signal) : List RecordId × Daemon :=
  let seen := d.monitors.dispatch d.registry.peers signal
  reportAll outside { d with monitors := seen.monitors } seen.notices

/-- Shows signals to the monitors, one after the other. -/
def observeAll (outside : Outside) (d : Daemon) : List Signal → List RecordId × Daemon
  | [] => ([], d)
  | signal :: rest =>
    let (ids, d) := d.observe outside signal
    let (others, d) := observeAll outside d rest
    (ids ++ others, d)

/-- Publishes a signal, and shows the monitors all that waits for them. -/
def publish (outside : Outside) (d : Daemon) (signal : Signal) : Response × Daemon :=
  let (delivered, bus) := d.bus.publish signal
  let (waiting, bus) := bus.drain d.queue
  let (records, d) := observeAll outside { d with bus } waiting
  (.published delivered records, d)

/-- What a daemon says about itself. -/
def status (outside : Outside) (d : Daemon) : Status where
  uptime := outside.uptime
  sink := d.config.sink.name
  monitors := d.monitors.names
  asserted := d.monitors.state.assertions.size

def handle (outside : Outside) (d : Daemon) : Request → Response × Daemon
  | .ping => (.pong, d)
  | .hello _ => (.hello programVersion, d)
  | .add message sensor data assert generator =>
    d.request .recordId
      (Pipeline.addSystem (d.surroundings outside) message sensor data assert generator)
  | .addOem message data recordType =>
    d.request .recordId (Pipeline.addOem (d.surroundings outside) message data recordType)
  | .clear => d.request (fun _ => .ok) (Pipeline.clear (d.surroundings outside))
  | .delete id => d.request .recordId (Pipeline.delete id)
  | .info => d.request .info Pipeline.info
  | .entries => d.request .entries Pipeline.entries
  | .publish signal => d.publish outside signal
  | .setProperties path interface properties =>
    (.ok, { d with registry := d.registry.set path interface properties })
  | .setReply reply => (.ok, { d with registry := d.registry.setReply reply })
  | .status => (.status (d.status outside), d)
  | .shutdown => (.shuttingDown, { d with isStopping := true })

/-- Serves a connection that brought the given bytes. -/
def serve (outside : Outside) (d : Daemon) (staysOpen : Bool) (received : List UInt8) : Served :=
  match Request.read staysOpen received with
  | .error .connectionClosed => ⟨.ok (), [], d⟩
  | .error .timeout => ⟨.error .timeout, [], d⟩
  | .error e => ⟨.error (.connection e), [], d⟩
  | .ok request =>
    let (response, d) := d.handle outside request
    match response.write with
    | .ok bytes => ⟨.ok (), bytes, d⟩
    | .error e => ⟨.error (.connection e), [], d⟩

end Daemon

end EventLog
