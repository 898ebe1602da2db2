import EventLog.Client.Command
import EventLog.Hex
import EventLog.Message.Codec

/-!
# EventLog.Client.Report

What the client prints about the answer to a command: lines of text, or JSON.
A list of records is a table; a cell that is too long for its column moves
the rest of its line.
-/

namespace EventLog

namespace Report

/-- Lines, each with a line feed behind it. -/
def lines (texts : List String) : String := String.join (texts.map (· ++ "\n"))

/-- A value as JSON, on lines of its own. -/
def json (value : Json) : String := value.pretty ++ "\n"

/-- A point in time, to the microsecond. -/
def time (t : Option Timestamp) : String := (t.map Timestamp.microText).getD "-"

/-- A line of the table. -/
def row (id time type data generator direction sensor : String) : String :=
  String.intercalate " "
    [Text.leftAligned 6 id, Text.leftAligned 26 time, Text.leftAligned 5 type,
      Text.leftAligned 28 data, Text.leftAligned 5 generator, Text.leftAligned 6 direction, sensor]

def header : String := row "ID" "TIMESTAMP" "TYPE" "DATA" "GEN" "DIR" "SENSOR"

def direction : Option Bool → String
  | some true => "assert"
  | some false => "deasrt"
  | none => "-"

def ofEntry (e : Entry) : String :=
  row (Text.decimal e.id.toNat) (time (some e.time))
    (String.ofList (Text.zeroPadded 2 (Nat.toDigits 16 e.recordType.toNat))) (Hex.text e.data)
    ((e.generator.map fun g => Text.lowerHex g.toNat).getD "-") (direction e.assert)
    (e.sensor.getD "-")

def ofEntries : OutputFormat → List Entry → String
  | .json, entries => json (.array (entries.map Entry.toJson))
  | .text, [] => lines ["No records"]
  | .text, entries => lines (header :: entries.map ofEntry)

def ofInfo (format : OutputFormat) (i : StoreInfo) : String :=
  match format with
  | .json => json i.toJson
  | .text => lines ["Entries:    " ++ Text.decimal i.entries, "Last add:   " ++ time i.lastAdd,
      "Last erase: " ++ time i.lastErase]

def ofStatus (format : OutputFormat) (s : Status) : String :=
  match format with
  | .json => json (.ofFields [("uptime_secs", .nat s.uptime), ("sink", .text s.sink),
      ("monitors", .array (s.monitors.map .text)), ("asserted", .nat s.asserted)])
  | .text => lines ["Status: running", "Uptime: " ++ Text.decimal s.uptime ++ "s",
      "Sink: " ++ s.sink, "Monitors: " ++ String.intercalate ", " s.monitors,
      "Asserted: " ++ Text.decimal s.asserted]

def ofPublished (format : OutputFormat) (delivered : Nat) (records : List RecordId) : String :=
  match format with
  | .json => json (.ofFields [("delivered", .nat delivered),
      ("records", .array (records.map RecordId.toJson))])
  | .text => lines (("Delivered to " ++ Text.decimal delivered ++ " subscription(s)")
      :: records.map fun id => "Stored record " ++ Text.decimal id.toNat)

/-- A record that was added; it has no number if it was passed on. -/
def ofAdded (id : RecordId) : String :=
  lines [if id = .unassigned then "Record forwarded" else "Added record " ++ Text.decimal id.toNat]

end Report

end EventLog
