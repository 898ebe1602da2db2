import EventLog.Hex
import EventLog.Json.Printer
import EventLog.Named
import EventLog.Sink.Basic

/-!
# EventLog.Sink.Service

A logging service as a sink.  Every entry is one request, whose body has a
message, a severity and named fields.  The fields of a record can be replaced
by its metadata.
-/

namespace EventLog

/-- The body of a request to a logging service. -/
structure ServicePayload where
  message : String
  severity : String
  fields : List (String × String)
  deriving DecidableEq, Repr

namespace ServicePayload

def informational : String := "xyz.openbmc_project.Logging.Entry.Level.Informational"

def messageOf (record : Record) (generator : Nat) (sensor : String) (direction : Nat) : String :=
  record.message ++ (if sensor = "" then "" else " from " ++ sensor) ++ ":  RecordType="
    ++ Text.decimal record.recordType.toNat ++ ", GeneratorID=" ++ Text.decimal generator
    ++ ", EventDir=" ++ Text.decimal direction ++ ", EventData=" ++ Hex.text record.data

def ofEntry : SinkEntry → ServicePayload
  | .informational message metadata => ⟨message, informational, Named.ofList metadata⟩
  | .record _ record =>
    let (generator, sensor, direction) : Nat × String × Nat := match record.origin with
      | .system generator sensor assert => (generator.toNat, sensor, if assert then 1 else 0)
      | .oem => (0, "", 0)
    let fields := Named.ofList [("SENSOR_PATH", sensor), ("GENERATOR_ID", Text.decimal generator),
      ("RECORD_TYPE", Text.decimal record.recordType.toNat), ("EVENT_DIR", Text.decimal direction),
      ("SENSOR_DATA", Hex.text record.data)]
    ⟨messageOf record generator sensor direction, informational,
      Named.merge fields record.metadata⟩

def toJson (p : ServicePayload) : Json :=
  .ofFields [("message", .text p.message), ("severity", .text p.severity),
    ("additional_data", .ofFields (p.fields.map fun (name, value) => (name, .text value)))]

end ServicePayload

/-- What the network says to a request: the status of an answer, or the failure to get one. -/
inductive PostOutcome where
  | status (code : Nat)
  | failed (reason : String)
  deriving DecidableEq, Repr

/-- Sends an entry to a logging service; a status from 400 on is a failure. -/
def Service.emit (url : String) (post : String → String → PostOutcome) (entry : SinkEntry) :
    Except SinkError Unit :=
  match post url (ServicePayload.ofEntry entry).toJson.compact with
  | .status code =>
    if 400 ≤ code then .error (.request (url ++ ": http status: " ++ Text.decimal code)) else .ok ()
  | .failed reason => .error (.request (url ++ ": " ++ reason))

end EventLog
