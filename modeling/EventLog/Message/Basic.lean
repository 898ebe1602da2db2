import EventLog.Peer.Query
import EventLog.Signal.Basic
import EventLog.Store.Basic

/-!
# EventLog.Message.Basic

What clients ask of the daemon, and what it answers.
-/

namespace EventLog

/-- The version that both sides tell each other. -/
def programVersion : String := "0.1.0"

/-- What a client asks for. -/
inductive Request where
  | ping
  | hello (version : String)
  | add (message sensor : String) (data : List UInt8) (assert : Bool) (generator : UInt16)
  | addOem (message : String) (data : List UInt8) (recordType : UInt8)
  | clear
  | delete (id : RecordId)
  | info
  | entries
  | publish (signal : Signal)
  | setProperties (path interface : String) (properties : Properties)
  | setReply (reply : CommandReply)
  | status
  | shutdown

/-- The kind of a refusal. -/
inductive RefusalKind where
  | eventDataTooLarge
  | invalidSensorPath
  | unsupported
  | storage
  | internal
  deriving DecidableEq, Repr

/-- What a daemon says about itself. -/
structure Status where
  uptime : Nat
  sink : String
  monitors : List String
  asserted : Nat
  deriving DecidableEq, Repr

/-- What the daemon answers. -/
inductive Response where
  | pong
  | hello (version : String)
  | ok
  | shuttingDown
  | recordId (id : RecordId)
  | info (info : StoreInfo)
  | entries (entries : List Entry)
  | published (delivered : Nat) (records : List RecordId)
  | status (status : Status)
  | refused (kind : RefusalKind) (message : String)
  deriving DecidableEq, Repr

namespace RefusalKind

def all : List RefusalKind :=
  [eventDataTooLarge, invalidSensorPath, unsupported, storage, internal]

def name : RefusalKind → String
  | eventDataTooLarge => "EventDataTooLarge"
  | invalidSensorPath => "InvalidSensorPath"
  | unsupported => "Unsupported"
  | storage => "Storage"
  | internal => "Internal"

end RefusalKind

end EventLog
