import EventLog.Hex
import EventLog.Text.Fields
import EventLog.Time.Reader

/-!
# EventLog.Line

One stored record, as a line of text:

    time id,type,data,generator,sensor,direction

The record type has two hexadecimal digits and the generator four; the data
is in hexadecimal; the direction is 1 if the condition came and 0 if it went.
An OEM record leaves the last three fields empty.  The sensor path may hold
blanks, but neither commas nor line ends, so it spoils neither fields nor lines.

Two readers look at a line.  `Entry.ofLine?` reads all of it, and
`Line.recordId?` only finds the number, which is enough for counting,
deleting and numbering.
-/

namespace EventLog

/-- A stored record, read back. -/
structure Entry where
  time : Timestamp
  id : RecordId
  recordType : UInt8
  data : List UInt8
  generator : Option UInt16
  sensor : Option String
  assert : Option Bool
  deriving DecidableEq, Repr

/-- Why a line is no stored record. -/
inductive LineError where
  | malformed (line : String)
  | invalidField (field value : String)
  | data (error : RecordError)
  deriving DecidableEq, Repr

def LineError.message : LineError → String
  | malformed line => "malformed log line: " ++ line
  | invalidField field value => "invalid " ++ field ++ " in log line: " ++ value
  | data error => error.message

namespace Line

/-- The fields of a record behind the time. -/
def fieldsOf (id : RecordId) (record : Record) : List (List Char) :=
  let system := match record.origin with
    | .system generator sensor assert =>
      [Text.capitalHex 4 generator.toNat, sensor.toList, if assert then ['1'] else ['0']]
    | .oem => [[], [], []]
  [Nat.toDigits 10 id.toNat, Text.capitalHex 2 record.recordType.toNat, Hex.encode record.data]
    ++ system

def format (time : Timestamp) (id : RecordId) (record : Record) : List Char :=
  time.logText ++ ' ' :: Text.joined ',' (fieldsOf id record)

/-- The words of a line: what stands between blanks and commas. -/
def words (line : List Char) : List (List Char) :=
  ((Text.fields ' ' line).flatMap (Text.fields ',')).filter (!·.isEmpty)

/-- The number of the record on a line: the second word. -/
def recordId? (line : List Char) : Option RecordId :=
  match words line with
  | _ :: word :: _ => (Text.numeral? 10 65536 word).map RecordId.ofNat
  | _ => none

end Line

namespace Entry

/-- Reads a field, or names it in the refusal. -/
def field {α : Type} (name : String) (value : List Char) : Option α → Except LineError α
  | some a => .ok a
  | none => .error (.invalidField name (String.ofList value))

def direction? : List Char → Option (Option Bool)
  | [] => some none
  | ['1'] => some (some true)
  | ['0'] => some (some false)
  | _ => none

def ofLine? (line : List Char) : Except LineError Entry :=
  match Text.cutOnce? ' ' line with
  | none => .error (.malformed (String.ofList line))
  | some (time, rest) =>
    match Text.fields ',' rest with
    | [id, recordType, data, generator, sensor, direction] => do
      let time ← field "timestamp" time (Timestamp.ofText? time)
      let id ← field "id" id (Text.numeral? 10 65536 id)
      let recordType ← field "record type" recordType (Text.numeral? 16 256 recordType)
      let data ← match Hex.decode? data with
        | some bytes => .ok bytes
        | none => .error (.data (.invalidHex (String.ofList data)))
      let generator ←
        if generator.isEmpty then .ok none
        else (field "generator id" generator (Text.numeral? 16 65536 generator)).map some
      let assert ← field "direction" direction (direction? direction)
      return {
        time, id := RecordId.ofNat id, recordType := UInt8.ofNat recordType, data
        generator := generator.map UInt16.ofNat
        sensor := if sensor.isEmpty then none else some (String.ofList sensor)
        assert }
    | _ => .error (.malformed (String.ofList line))

end Entry

end EventLog
