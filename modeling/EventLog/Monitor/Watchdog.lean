import EventLog.Monitor.Basic

/-!
# EventLog.Monitor.Watchdog

The host's watchdog: it ran out, or it was enabled or disabled.  Either way
the watchdog is asked for its settings.  The host can ask for the events of
its watchdog not to be logged; the wish is looked up whenever something came,
and holds until the next time.
-/

namespace EventLog

/-- Where the state of a watchdog is taken from: the signal that says it
changed, or the watchdog's property. -/
inductive EnabledSource where
  | signal
  | property
  deriving DecidableEq, Repr

/-- What happened to a watchdog. -/
inductive WatchdogEvent where
  | timeout (sender path action : String)
  | enabled (sender path : String) (value : Bool)
  deriving DecidableEq, Repr

namespace Watchdog

/-- The interface of the signal that a watchdog ran out. -/
def timeoutInterface : String := "xyz.openbmc_project.Watchdog"

/-- The interface that holds a watchdog's settings. -/
def stateInterface : String := "xyz.openbmc_project.State.Watchdog"

def enabledProperty : String := "Enabled"

/-- Reads what happened out of a signal; a change of other properties is nothing. -/
def ofSignal? (signal : Signal) : Except MonitorError (Option WatchdogEvent) := do
  if signal.member = propertiesChangedMember then
    match Named.find? enabledProperty (← signal.changed) with
    | none => return none
    | some value =>
      return some (.enabled signal.sender signal.path (← signal.reading value.asBool))
  else
    let action ← signal.reading (signal.arg 0 >>= Value.asString)
    return some (.timeout signal.sender signal.path (enumLeaf action))

def actionOffset (action : String) : UInt8 :=
  if action = "None" then 0x00
  else if action = "HardReset" then 0x01
  else if action = "PowerOff" then 0x02
  else if action = "PowerCycle" then 0x03
  else unspecifiedByte

def interruptOffset? (interrupt : String) : Option UInt8 :=
  if interrupt = "None" then some 0x00
  else if interrupt = "SMI" then some 0x01
  else if interrupt = "NMI" then some 0x02
  else if interrupt = "MI" then some 0x03
  else none

def timerUseOffset (use : String) : UInt8 :=
  if use = "BIOSFRB2" then 0x01
  else if use = "BIOSPOST" then 0x02
  else if use = "OSLoad" then 0x03
  else if use = "SMSOS" then 0x04
  else if use = "OEM" then 0x05
  else 0x0F

/-- The short name that a setting has; empty, if there is no such setting. -/
def leafOf (settings : Properties) (name : String) : Except ValueError String :=
  match Named.find? name settings with
  | some value => enumLeaf <$> value.asString
  | none => .ok ""

/-- The data and the message of a record. -/
def describe (settings : Properties) (action : Option String) (assert : Bool) :
    Except ValueError (List UInt8 × String) := do
  let action ← match action with
    | some action => pure action
    | none => leafOf settings "ExpireAction"
  let interrupt ← leafOf settings "PreTimeoutInterrupt"
  let use ← leafOf settings "CurrentTimerUse"
  let interval ← match Named.find? "Interval" settings with
    | some value => value.asUInt64
    | none => pure 0
  let timer := match interruptOffset? interrupt with
    | some n => (n <<< 4) ||| timerUseOffset use
    | none => unspecifiedByte
  return ([actionOffset action, timer, unspecifiedByte],
    use ++ " " ++ (if assert then "enable" else "disable") ++ " watchdog countdown "
      ++ Text.decimal (interval.toNat / 1000) ++ " seconds " ++ action ++ " action")

def record (peers : Peers) (sender path : String) (action : Option String) (assert : Bool) :
    QueryM Record := do
  let settings ← QueryM.properties peers sender path stateInterface
  let (data, message) ← QueryM.typed (describe settings action assert)
  let made ← QueryM.made (Record.system? message path data assert controllerGenerator)
  return (made.withMetadata "REDFISH_MESSAGE_ID" "OpenBMC.0.1.IPMIWatchdog").withMetadata
    "REDFISH_MESSAGE_ARGS" (if assert then "Enabled" else "Disabled")

/-- What an event of a watchdog comes to.  Running out changes no condition. -/
def observe (peers : Peers) (source : EnabledSource) : WatchdogEvent → QueryM Observation
  | .timeout sender path action => do
    return ⟨.record (← record peers sender path (some action) true), none⟩
  | .enabled sender path value => do
    let value ← match source with
      | .signal => pure value
      | .property =>
        QueryM.property peers sender path stateInterface enabledProperty >>=
          fun current => QueryM.typed current.asBool
    let made ← record peers sender path none value
    return ⟨.record made, some ⟨⟨path, enabledProperty⟩, value⟩⟩

/-- The question whether the watchdog's events are to be logged. -/
def noLogQuery : BusQuery := .command 0x06 0 0x25 []

/-- Whether the host asks not to log; without an answer it does not. -/
def noLog (peers : Peers) : Bool :=
  match peers.command 0x06 0 0x25 [] with
  | .ok reply => reply.data.head?.any fun byte => byte &&& 0x80 != 0
  | .error _ => false

end Watchdog

end EventLog
