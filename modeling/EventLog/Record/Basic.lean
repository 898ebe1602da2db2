import EventLog.Record.Id
import EventLog.Text.Blank
import EventLog.Text.Quoted
import EventLog.Text.Numeral

/-!
# EventLog.Record.Basic

Event records before they are numbered.  A *system* record is raised against
a sensor: it carries at most three bytes of event data and says which
component raised it and whether the condition came or went.  An *OEM* record
carries at most thirteen bytes and nothing else.

Records made by `Record.system?` and `Record.oem?` respect the limits; a
record put together by hand need not, and the operations below check it.
-/

namespace EventLog

/-- Why a record, or a part of one, is refused. -/
inductive RecordError where
  | dataTooLong (length limit : Nat)
  | invalidHex (text : String)
  | invalidSensorPath (path : String)
  deriving DecidableEq, Repr

def RecordError.message : RecordError → String
  | dataTooLong length limit =>
    "event data of " ++ Text.decimal length ++ " bytes exceeds the " ++ Text.decimal limit
      ++ "-byte limit"
  | invalidHex text => "invalid hex string: " ++ text
  | invalidSensorPath path =>
    "sensor path " ++ Text.quoted path ++ " contains a comma or control character"

/-- Where a record comes from. -/
inductive Origin where
  | system (generator : UInt16) (sensor : String) (assert : Bool)
  | oem
  deriving DecidableEq, Repr

/-- An event, before it is given a number. -/
structure Record where
  recordType : UInt8
  message : String
  data : List UInt8
  origin : Origin
  metadata : List (String × String)
  deriving DecidableEq, Repr

def systemRecordType : UInt8 := 0x02

/-- The generator of records that the management controller raises itself. -/
def controllerGenerator : UInt16 := 0x0020

/-- The most event data of a system record, in bytes. -/
def systemDataLimit : Nat := 3

/-- The most event data of an OEM record, in bytes. -/
def oemDataLimit : Nat := 13

/-- The event data byte that says nothing. -/
def unspecifiedByte : UInt8 := 0xFF

/-- Event data within the limit. -/
def checkData (limit : Nat) (data : List UInt8) : Except RecordError Unit :=
  if data.length ≤ limit then .ok () else .error (.dataTooLong data.length limit)

/-- A sensor path keeps to one line and one field of a log: it holds neither a
comma nor a control character. -/
def IsSensorPath (path : String) : Prop :=
  ∀ c ∈ path.toList, c ≠ ',' ∧ Text.isControl c = false

instance (path : String) : Decidable (IsSensorPath path) :=
  List.decidableBAll (fun c => c ≠ ',' ∧ Text.isControl c = false) path.toList

def checkSensorPath (path : String) : Except RecordError Unit :=
  if IsSensorPath path then .ok () else .error (.invalidSensorPath path)

namespace Record

/-- A system record.  The length of the data is checked before the path. -/
def system? (message sensor : String) (data : List UInt8) (assert : Bool) (generator : UInt16) :
    Except RecordError Record := do
  checkData systemDataLimit data
  checkSensorPath sensor
  return ⟨systemRecordType, message, data, .system generator sensor assert, []⟩

def oem? (message : String) (data : List UInt8) (recordType : UInt8) :
    Except RecordError Record := do
  checkData oemDataLimit data
  return ⟨recordType, message, data, .oem, []⟩

/-- The record with one more metadata field behind the others. -/
def withMetadata (record : Record) (key value : String) : Record :=
  { record with metadata := record.metadata ++ [(key, value)] }

def sensorPath? (record : Record) : Option String :=
  match record.origin with
  | .system _ sensor _ => some sensor
  | .oem => none

def generator? (record : Record) : Option UInt16 :=
  match record.origin with
  | .system generator _ _ => some generator
  | .oem => none

/-- The direction of a system record. -/
def assert? (record : Record) : Option Bool :=
  match record.origin with
  | .system _ _ assert => some assert
  | .oem => none

end Record

end EventLog
