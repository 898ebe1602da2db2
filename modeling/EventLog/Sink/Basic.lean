import EventLog.Record.Basic

/-!
# EventLog.Sink.Basic

Where records are reported.  A sink takes one entry after the other, and is
asked to start afresh after the log was cleared.
-/

namespace EventLog

/-- What a monitor or a client has to report. -/
inductive Notice where
  | record (record : Record)
  | informational (message : String) (metadata : List (String × String))
  deriving DecidableEq, Repr

/-- What a sink is given.  A record that is not stored has no number of its own. -/
inductive SinkEntry where
  | record (id : RecordId) (record : Record)
  | informational (message : String) (metadata : List (String × String))
  deriving DecidableEq, Repr

/-- What is asked of a sink. -/
inductive SinkCall where
  | emit (entry : SinkEntry)
  | reload
  deriving DecidableEq, Repr

/-- Why a sink fails. -/
inductive SinkError where
  | request (reason : String)
  | reload (reason : String)
  deriving DecidableEq, Repr

def SinkError.message : SinkError → String
  | request reason => "logging service request failed: " ++ reason
  | reload reason => "reload failed: " ++ reason

end EventLog
