import EventLog.Monitor.Host
import EventLog.Monitor.Threshold
import EventLog.Monitor.Watchdog

/-!
# EventLog.Monitor.Process

One monitor and one signal.  The monitor reads an event out of the signal and
makes an observation of it; if that changes a condition, the change has to be
one, or the event is a duplicate and leaves no trace.  The watchdog then has a
last say on whether the event is logged.
-/

namespace EventLog

/-- The monitors. -/
inductive Monitor where
  | threshold
  | thresholdAlarm
  | watchdog
  | hostError
  | power
  deriving DecidableEq, Repr

/-- An event that a monitor read out of a signal. -/
inductive MonitorEvent where
  | crossing (tracked : Bool) (event : Crossing)
  | watchdog (event : WatchdogEvent)
  | hostError (event : HostError)
  | power (event : PowerEvent)

/-- What monitors remember: the conditions that stand, and whether the
watchdog's events are not to be logged. -/
structure MonitorState where
  assertions : Assertions
  noLog : Bool

/-- Nothing stands, and everything is logged. -/
def MonitorState.initial : MonitorState := ⟨.none, false⟩

/-- What became of a signal: what there is to report, and the questions that were asked. -/
structure Processed where
  result : Except MonitorError (Option Notice)
  state : MonitorState
  queries : List BusQuery

namespace Monitor

/-- All monitors, in the order in which they see a signal. -/
def all : List Monitor := [threshold, thresholdAlarm, watchdog, hostError, power]

def name : Monitor → String
  | threshold => "threshold"
  | thresholdAlarm => "threshold_alarm"
  | watchdog => "watchdog"
  | hostError => "host_error"
  | power => "pulse"

/-- The patterns of the signals that a monitor looks at. -/
def patterns : Monitor → List Pattern
  | threshold => [Pattern.anyOf Crossing.member]
  | thresholdAlarm =>
    Crossing.alarms.map fun (kind, assert) => Pattern.anyOf (Crossing.alarmMember kind assert)
  | watchdog =>
    [Pattern.exact "Timeout" Watchdog.timeoutInterface,
      Pattern.exact propertiesChangedMember Watchdog.stateInterface]
  | hostError =>
    HostError.errors.map fun e => Pattern.exact propertiesChangedMember (HostError.interface e)
  | power => [Pattern.exact propertiesChangedMember PowerEvent.hostInterface]

def accepts (m : Monitor) (signalName : String) : Bool := m.patterns.any (·.accepts signalName)

/-- Reads an event out of a signal, if it holds one for the monitor. -/
def decode (m : Monitor) (signal : Signal) : Except MonitorError (Option MonitorEvent) :=
  match m with
  | threshold => return some (.crossing true (← Crossing.ofSignal? signal))
  | thresholdAlarm => return (← Crossing.ofAlarm? signal).map (.crossing false)
  | watchdog => return (← Watchdog.ofSignal? signal).map .watchdog
  | hostError => return (← HostError.ofSignal? signal).map .hostError
  | power => return (← PowerEvent.ofSignal? signal).map .power

/-- What an event comes to, with what the peers answer. -/
def observe (peers : Peers) (source : EnabledSource) : MonitorEvent → QueryM Observation
  | .crossing tracked event => event.observe peers tracked
  | .watchdog event => Watchdog.observe peers source event
  | .hostError event => event.observe
  | .power event => return event.observe

/-- Makes the change of an observation, and says whether it is one. -/
def track (change : Option Change) (assertions : Assertions) : Bool × Assertions :=
  match change with
  | none => (true, assertions)
  | some ⟨condition, assert⟩ => assertions.apply condition assert

/-- Whether a notice is a record of something that came. -/
def asserts : Notice → Bool
  | .record made => made.assert? == some true
  | .informational .. => false

/-- The last say on a notice.  The watchdog asks again whether to log when
something came; the other monitors log everything. -/
def finish (m : Monitor) (peers : Peers) (notice : Notice) (noLog : Bool) :
    Option Notice × Bool × List BusQuery :=
  match m, notice with
  | watchdog, .record _ =>
    let (noLog, queries) :=
      if asserts notice then (Watchdog.noLog peers, [Watchdog.noLogQuery]) else (noLog, [])
    (if noLog then none else some notice, noLog, queries)
  | _, _ => (some notice, noLog, [])

def process (m : Monitor) (source : EnabledSource) (peers : Peers) (signal : Signal)
    (state : MonitorState) : Processed :=
  match m.decode signal with
  | .error e => ⟨.error e, state, []⟩
  | .ok none => ⟨.ok none, state, []⟩
  | .ok (some event) =>
    match (observe peers source event).run [] with
    | (.error e, queries) => ⟨.error e, state, queries⟩
    | (.ok observation, queries) =>
      match track observation.change state.assertions with
      | (false, _) => ⟨.ok none, state, queries⟩
      | (true, assertions) =>
        let (notice, noLog, more) := m.finish peers observation.notice state.noLog
        ⟨.ok notice, ⟨assertions, noLog⟩, queries ++ more⟩

end Monitor

end EventLog
