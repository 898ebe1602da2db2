import EventLog.Value.Basic

/-!
# EventLog.Peer.Query

Questions to the peers on the message bus: properties of an object, one
property, or a command to the host's management interface.  `Peers` says how
they answer.
-/

namespace EventLog

/-- A question, and the service that it is for. -/
inductive BusQuery where
  | properties (service path interface : String)
  | property (service path interface name : String)
  | command (netfn lun cmd : UInt8) (data : List UInt8)
  deriving DecidableEq, Repr

/-- Why a question has no answer. -/
inductive BusError where
  | unknownInterface (path interface : String)
  | unknownProperty (path interface property : String)
  | noCommandReply (netfn cmd : UInt8)
  | callFailed (reason : String)
  deriving DecidableEq, Repr

namespace BusError

/-- A byte in hexadecimal, with its base in front. -/
def byteText (byte : UInt8) : String :=
  "0x" ++ String.ofList (Text.zeroPadded 2 (Nat.toDigits 16 byte.toNat))

def message : BusError → String
  | unknownInterface path interface => "no object at " ++ path ++ " implements " ++ interface
  | unknownProperty path interface property =>
    interface ++ " at " ++ path ++ " has no property " ++ property
  | noCommandReply netfn cmd =>
    "no response for IPMI netfn " ++ byteText netfn ++ " cmd " ++ byteText cmd
  | callFailed reason => "bus call failed: " ++ reason

end BusError

/-- The reply to a command. -/
structure CommandReply where
  netfn : UInt8
  lun : UInt8
  cmd : UInt8
  completionCode : UInt8
  data : List UInt8
  deriving DecidableEq, Repr

/-- How the peers answer. -/
structure Peers where
  properties : (service path interface : String) → Except BusError Properties
  property : (service path interface name : String) → Except BusError Value
  command : (netfn lun cmd : UInt8) → (data : List UInt8) → Except BusError CommandReply

/-- Peers that answer nothing. -/
def Peers.unavailable (reason : String) : Peers where
  properties _ _ _ := .error (.callFailed reason)
  property _ _ _ _ := .error (.callFailed reason)
  command _ _ _ _ := .error (.callFailed reason)

end EventLog
