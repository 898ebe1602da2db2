import EventLog.Peer.Query
import EventLog.Record.Id
import EventLog.Disk.Path

/-!
# EventLog.Client.Command

What a user can ask the client for.
-/

namespace EventLog

/-- How results are printed. -/
inductive OutputFormat where
  | text
  | json
  deriving DecidableEq, Repr

/-- A command.  Signals and properties are still as they were written: a JSON
text, or a mark and where to read one. -/
inductive Command where
  | add (message sensor : String) (data : List UInt8) (assert : Bool) (generator : UInt16)
  | addOem (message : String) (data : List UInt8) (recordType : UInt8)
  | clear
  | delete (id : RecordId)
  | info
  | list
  | publish (signal : String)
  | setProperties (path interface properties : String)
  | setReply (reply : CommandReply)
  | status
  | shutdown
  deriving DecidableEq, Repr

/-- A command, and what holds for all of them: the configuration's file, the
socket in place of the configured one, and the format. -/
structure Invocation where
  config : Option Path
  socket : Option Path
  format : OutputFormat
  command : Command
  deriving DecidableEq, Repr

/-- What the arguments of a program ask for. -/
inductive Asked where
  | run (invocation : Invocation)
  | version
  | help
  /-- The arguments make no sense. -/
  | wrong
  deriving DecidableEq, Repr

end EventLog
