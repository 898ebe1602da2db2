import EventLog.Monitor.Basic

/-!
# EventLog.Monitor.Host

Changes of properties that the host itself reports: errors of a processor, and
the power going on and off.
-/

namespace EventLog

/-- An error of a processor, which came or went. -/
structure HostError where
  path : String
  error : String
  assert : Bool
  deriving DecidableEq, Repr

namespace HostError

def processorNameSpace : String := "xyz.openbmc_project.HostErrorMonitor.Processor"

def errors : List String := ["ThermalTrip", "IERR"]

def interface (error : String) : String := processorNameSpace ++ "." ++ error

/-- Reads an error out of a signal; a change of other properties is none. -/
def ofSignal? (signal : Signal) : Except MonitorError (Option HostError) := do
  let interface ← signal.reading (signal.arg 0 >>= Value.asString)
  match Named.find? "Asserted" (← signal.changed) with
  | none => return none
  | some value =>
    return some ⟨signal.path, enumLeaf interface, ← signal.reading value.asBool⟩

def observe (e : HostError) : QueryM Observation := do
  let message := objectName e.path ++ (if e.assert then " Asserted" else " De-Asserted")
  let data := [if e.error = "ThermalTrip" then 1 else 0, unspecifiedByte, unspecifiedByte]
  let made ← QueryM.made (Record.system? message e.path data e.assert controllerGenerator)
  return ⟨.record made, some ⟨⟨e.path, e.error⟩, e.assert⟩⟩

end HostError

/-- The host's power goes on or off. -/
inductive PowerEvent where
  | off
  | on
  deriving DecidableEq, Repr

namespace PowerEvent

/-- The interface that holds the host's state. -/
def hostInterface : String := "xyz.openbmc_project.State.Host"

/-- The state of a host whose power goes a way. -/
def state : PowerEvent → String
  | off => "xyz.openbmc_project.State.Host.HostState.Off"
  | on => "xyz.openbmc_project.State.Host.HostState.Running"

/-- Reads the way that the power goes out of a signal; other states are none. -/
def ofSignal? (signal : Signal) : Except MonitorError (Option PowerEvent) := do
  match Named.find? "CurrentHostState" (← signal.changed) with
  | none => return none
  | some value =>
    let current ← signal.reading value.asString
    return [off, on].find? fun e => e.state == current

/-- What the power going a way comes to. -/
def observe (e : PowerEvent) : Observation :=
  let (message, redfishId) := match e with
    | off => ("Host system DC power is off", "OpenBMC.0.1.DCPowerOff")
    | on => ("Host system DC power is on", "OpenBMC.0.1.DCPowerOn")
  ⟨.informational message [("REDFISH_MESSAGE_ID", redfishId)], none⟩

end PowerEvent

end EventLog
