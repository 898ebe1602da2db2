import EventLog.Assertions
import EventLog.Peer.Query
import EventLog.Signal.Pattern
import EventLog.Sink.Basic

/-!
# EventLog.Monitor.Basic

What all monitors have in common.  A monitor reads an event out of a signal,
asks the peers for what else it needs, and observes something: a notice, and
perhaps the change of a condition.
-/

namespace EventLog

/-- Why a monitor drops an event. -/
inductive MonitorError where
  | decode (signal : String) (error : ValueError)
  | unknown (what value : String)
  | bus (error : BusError)
  | property (error : ValueError)
  | record (error : RecordError)
  deriving DecidableEq, Repr

def MonitorError.message : MonitorError → String
  | decode signal error => "malformed " ++ signal ++ " signal: " ++ error.message
  | unknown what value => "unknown " ++ what ++ ": " ++ value
  | bus error => "bus query failed: " ++ error.message
  | property error => "unexpected property type: " ++ error.message
  | record error => "invalid record: " ++ error.message

/-- The coming or going of a condition. -/
structure Change where
  condition : Condition
  assert : Bool
  deriving DecidableEq, Repr

/-- What an event comes to: a notice, and the condition that it changes, if it
changes one. -/
structure Observation where
  notice : Notice
  change : Option Change
  deriving DecidableEq, Repr

/-- A step that asks the peers; the questions asked are kept, also of a step that fails. -/
abbrev QueryM := ExceptT MonitorError (StateM (List BusQuery))

namespace QueryM

def ask {α : Type} (query : BusQuery) (answer : Except BusError α) : QueryM α := do
  modify (· ++ [query])
  match answer with
  | .ok a => return a
  | .error e => throw (.bus e)

def properties (peers : Peers) (service path interface : String) : QueryM Properties :=
  ask (.properties service path interface) (peers.properties service path interface)

def property (peers : Peers) (service path interface name : String) : QueryM Value :=
  ask (.property service path interface name) (peers.property service path interface name)

/-- A property's value of the type that is needed. -/
def typed {α : Type} : Except ValueError α → QueryM α
  | .ok a => return a
  | .error e => throw (.property e)

/-- A record that passed the checks. -/
def made : Except RecordError Record → QueryM Record
  | .ok r => return r
  | .error e => throw (.record e)

end QueryM

/-- Blames a wrong argument on the signal. -/
def Signal.reading {α : Type} (signal : Signal) : Except ValueError α → Except MonitorError α
  | .ok a => .ok a
  | .error e => .error (.decode signal.name e)

def Signal.changed (signal : Signal) : Except MonitorError Properties :=
  signal.reading (signal.arg 1 >>= Value.asDict)

end EventLog
