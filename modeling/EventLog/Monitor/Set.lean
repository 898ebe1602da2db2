import EventLog.Monitor.Process

/-!
# EventLog.Monitor.Set

The monitors that are enabled, working together: they share the conditions
that stand, and a signal is shown to each one that looks at signals of its
name.
-/

namespace EventLog

/-- Which monitors are enabled, and where the state of a watchdog is taken from. -/
structure MonitorConfig where
  threshold : Bool
  thresholdAlarm : Bool
  watchdog : Bool
  hostError : Bool
  power : Bool
  enabledSource : EnabledSource
  deriving DecidableEq, Repr

def MonitorConfig.default : MonitorConfig := ⟨true, true, true, true, true, .signal⟩

def MonitorConfig.isEnabled (config : MonitorConfig) : Monitor → Bool
  | .threshold => config.threshold
  | .thresholdAlarm => config.thresholdAlarm
  | .watchdog => config.watchdog
  | .hostError => config.hostError
  | .power => config.power

/-- The enabled monitors and what they remember. -/
structure Monitors where
  config : MonitorConfig
  state : MonitorState

/-- What became of a signal: all there is to report, and the questions that were asked. -/
structure Dispatched where
  notices : List Notice
  monitors : Monitors
  queries : List BusQuery

namespace Monitors

/-- Monitors that have seen nothing yet. -/
def fresh (config : MonitorConfig) : Monitors := ⟨config, MonitorState.initial⟩

/-- The enabled monitors, in the order in which they see a signal. -/
def enabled (m : Monitors) : List Monitor := Monitor.all.filter m.config.isEnabled

def names (m : Monitors) : List String := m.enabled.map Monitor.name

/-- The patterns of all signals that some enabled monitor looks at. -/
def patterns (m : Monitors) : List Pattern := m.enabled.flatMap Monitor.patterns

/-- Shows a signal to one monitor, if it looks at signals of its name. -/
def offer (peers : Peers) (signal : Signal) (d : Dispatched) (monitor : Monitor) : Dispatched :=
  if monitor.accepts signal.name then
    let p := monitor.process d.monitors.config.enabledSource peers signal d.monitors.state
    { notices := d.notices ++ (p.result.toOption.join).toList
      monitors := { d.monitors with state := p.state }
      queries := d.queries ++ p.queries }
  else d

/-- Shows a signal to every enabled monitor that looks at signals of its name. -/
def dispatch (m : Monitors) (peers : Peers) (signal : Signal) : Dispatched :=
  m.enabled.foldl (offer peers signal) ⟨[], m, []⟩

end Monitors

end EventLog
