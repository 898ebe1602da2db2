import EventLog.Disk.Basic
import EventLog.Hex
import EventLog.Sink.Basic
import EventLog.Text.Blank
import EventLog.Text.Utf8

/-!
# EventLog.Sink.Journal

The system journal as a sink.  An entry is an event with named fields; all
events of records carry one message identifier, so that they can be found
again.  After a clear the unit that forwards the journal is reloaded.
-/

namespace EventLog

/-- The value of a field. -/
inductive JournalValue where
  | text (value : String)
  | number (value : Nat)
  deriving DecidableEq, Repr

/-- An event of the journal: its fields, the message first. -/
abbrev JournalEvent := List (String × JournalValue)

/-- How the command that reloads a unit ended, with the bytes of its complaint if it failed. -/
inductive ReloadOutcome where
  | succeeded
  | failed (stderr : List UInt8)
  deriving DecidableEq, Repr

namespace Journal

/-- The identifier of all events of records. -/
def messageId : String := "b370836ccf2f4850ac5bee185b77893a"

/-- The priority of events of records: notice. -/
def priority : Nat := 5

/-- Metadata on one line. -/
def metadataText (metadata : List (String × String)) : String :=
  String.intercalate " " (metadata.map fun (key, value) => key ++ "=" ++ value)

def event : SinkEntry → JournalEvent
  | .informational message metadata =>
    [("message", .text message), ("metadata", .text (metadataText metadata))]
  | .record id record =>
    let start := [("message", .text record.message), ("MESSAGE_ID", .text messageId),
      ("PRIORITY", .number priority), ("IPMI_SEL_RECORD_ID", .number id.toNat),
      ("IPMI_SEL_RECORD_TYPE", .text (Text.lowerHex record.recordType.toNat))]
    let data := [("IPMI_SEL_DATA", JournalValue.text (Hex.text record.data))]
    match record.origin with
    | .oem => start ++ data
    | .system generator sensor assert =>
      start ++ [("IPMI_SEL_GENERATOR_ID", .text (Text.lowerHex generator.toNat)),
        ("IPMI_SEL_SENSOR_PATH", .text sensor),
        ("IPMI_SEL_EVENT_DIR", .number (if assert then 1 else 0))]
        ++ data ++ [("metadata", .text (metadataText record.metadata))]

def reloadArguments (unit : String) : List String := ["reload", unit]

/-- Reloads the unit, if there is one: the arguments that the command was run
with, and the outcome.  `run` says how the command ends, or why it cannot be run. -/
def reload (unit : Option String) (run : List String → Except SystemError ReloadOutcome) :
    Option (List String) × Except SinkError Unit :=
  match unit with
  | none => (none, .ok ())
  | some unit =>
    let arguments := reloadArguments unit
    match run arguments with
    | .error cause => (none, .error (.reload (unit ++ ": " ++ cause.message)))
    | .ok .succeeded => (some arguments, .ok ())
    | .ok (.failed stderr) =>
      let reason := String.ofList (Text.trimmed (Text.shown stderr))
      (some arguments, .error (.reload (unit ++ ": " ++ reason)))

end Journal

end EventLog
