import EventLog.Json.Printer
import EventLog.Message.Basic
import EventLog.Message.Frame
import EventLog.Signal.Codec

/-!
# EventLog.Message.Codec

Requests and responses as JSON.  The member `type` names the message; it may
stand anywhere.  A list of the name and the fields in their order is accepted
too.  All of a message has to be sound, also the parts that mean nothing.
-/

namespace EventLog

/-! ## Parts of messages -/

namespace Json

def bytes (bs : List UInt8) : Json := .array (bs.map fun b => .nat b.toNat)

def bytes? (value : Json) : Option (List UInt8) := value.items? byte?

/-- Reads a word of sixteen bits. -/
def word? (value : Json) : Option UInt16 := (value.natBelow? 65536).map UInt16.ofNat

/-- Reads a word of sixty-four bits as a number. -/
def count? (value : Json) : Option Nat := value.natBelow? Text.wordLimit

/-- A message: an object with the name under `type` in front of the fields. -/
def message (name : String) (fields : List (String × Json)) : Json :=
  .ofFields (("type", .text name) :: fields)

/-- The name of a message, and the message without it. -/
def message? : Json → Option (String × Json)
  | .object members => do
    let name ← (← member? "type" members) >>= text?
    return (name, .object (members.filter (·.1 != some "type")))
  | .array (name :: rest) => name.text?.map (·, .array rest)
  | _ => none

/-- A message with nothing but its name; other members are passed over. -/
def isBare : Json → Bool
  | .object _ => true
  | .array [] => true
  | _ => false

end Json

namespace RecordId

def toJson (id : RecordId) : Json := .nat id.toNat

def ofJson? (value : Json) : Option RecordId := value.word?.map RecordId.mk

end RecordId

namespace Timestamp

def toJson (t : Timestamp) : Json := .text t.messageText

def ofJson? (value : Json) : Option Timestamp := value.text?.bind fun s => ofMessage? s.toList

end Timestamp

namespace CommandReply

def toJson (r : CommandReply) : Json :=
  .ofFields [("netfn", .nat r.netfn.toNat), ("lun", .nat r.lun.toNat), ("cmd", .nat r.cmd.toNat),
    ("cc", .nat r.completionCode.toNat), ("data", .bytes r.data)]

def ofJson? (value : Json) : Option CommandReply := do
  match ← value.fields? ["netfn", "lun", "cmd", "cc", "data"] 5 with
  | [some netfn, some lun, some cmd, some cc, some data] =>
    return ⟨← netfn.byte?, ← lun.byte?, ← cmd.byte?, ← cc.byte?, ← data.bytes?⟩
  | _ => none

end CommandReply

namespace Entry

def toJson (e : Entry) : Json :=
  .ofFields [("timestamp", e.time.toJson), ("id", e.id.toJson),
    ("record_type", .nat e.recordType.toNat), ("data", .bytes e.data),
    ("generator_id", .option (fun g => .nat g.toNat) e.generator),
    ("sensor_path", .option .text e.sensor), ("assert", .option .bool e.assert)]

/-- A field that may be missing or `null`. -/
def optional {α : Type} (decode : Json → Option α) : Option Json → Option (Option α)
  | none => some none
  | some value => value.nullable? decode

def ofJson? (value : Json) : Option Entry := do
  match ← value.fields?
      ["timestamp", "id", "record_type", "data", "generator_id", "sensor_path", "assert"] 7 with
  | [some time, some id, some recordType, some data, generator, sensor, assert] =>
    return ⟨← Timestamp.ofJson? time, ← RecordId.ofJson? id, ← recordType.byte?, ← data.bytes?,
      ← optional Json.word? generator, ← optional Json.text? sensor,
      ← optional Json.bool? assert⟩
  | _ => none

end Entry

namespace StoreInfo

def toJson (i : StoreInfo) : Json :=
  .ofFields [("entries", .nat i.entries), ("last_add", .option Timestamp.toJson i.lastAdd),
    ("last_erase", .option Timestamp.toJson i.lastErase)]

def ofJson? (value : Json) : Option StoreInfo := do
  match ← value.fields? ["entries", "last_add", "last_erase"] 3 with
  | [some entries, lastAdd, lastErase] =>
    return ⟨← entries.count?, ← Entry.optional Timestamp.ofJson? lastAdd,
      ← Entry.optional Timestamp.ofJson? lastErase⟩
  | _ => none

end StoreInfo

namespace RefusalKind

def ofJson? (value : Json) : Option RefusalKind :=
  (value.choice? true).bind fun name => all.find? fun kind => kind.name == name

end RefusalKind

/-! ## Requests -/

namespace Request

def toJson : Request → Json
  | ping => .message "Ping" []
  | hello version => .message "Hello" [("version", .text version)]
  | add message sensor data assert generator =>
    .message "Add" [("message", .text message), ("sensor_path", .text sensor),
      ("event_data", .bytes data), ("assert", .bool assert), ("generator_id", .nat generator.toNat)]
  | addOem message data recordType =>
    .message "AddOem" [("message", .text message), ("event_data", .bytes data),
      ("record_type", .nat recordType.toNat)]
  | clear => .message "Clear" []
  | delete id => .message "Delete" [("id", id.toJson)]
  | info => .message "Info" []
  | entries => .message "Entries" []
  | publish signal => .message "Publish" [("signal", signal.toJson)]
  | setProperties path interface properties =>
    .message "SetProperties" [("path", .text path), ("interface", .text interface),
      ("properties", Value.propertiesToJson properties)]
  | setReply reply => .message "SetIpmiResponse" [("response", reply.toJson)]
  | status => .message "Status" []
  | shutdown => .message "Shutdown" []

def ofFields? (name : String) (fields : Json) : Option Request :=
  let bare (request : Request) : Option Request := if fields.isBare then some request else none
  match name with
  | "Ping" => bare ping
  | "Hello" => do
    match ← fields.fields? ["version"] 1 with
    | [some version] => return hello (← version.text?)
    | _ => none
  | "Add" => do
    match ← fields.fields? ["message", "sensor_path", "event_data", "assert", "generator_id"] 5 with
    | [some message, some sensor, some data, some assert, some generator] =>
      return add (← message.text?) (← sensor.text?) (← data.bytes?) (← assert.bool?)
        (← generator.word?)
    | _ => none
  | "AddOem" => do
    match ← fields.fields? ["message", "event_data", "record_type"] 3 with
    | [some message, some data, some recordType] =>
      return addOem (← message.text?) (← data.bytes?) (← recordType.byte?)
    | _ => none
  | "Clear" => bare clear
  | "Delete" => do
    match ← fields.fields? ["id"] 1 with
    | [some id] => return delete (← RecordId.ofJson? id)
    | _ => none
  | "Info" => bare info
  | "Entries" => bare entries
  | "Publish" => do
    match ← fields.fields? ["signal"] 1 with
    | [some signal] => return publish (← Signal.ofJson? true Json.depthLimit signal)
    | _ => none
  | "SetProperties" => do
    match ← fields.fields? ["path", "interface", "properties"] 3 with
    | [some path, some interface, some properties] =>
      return setProperties (← path.text?) (← interface.text?)
        (← Value.propertiesOfJson? true Json.depthLimit properties)
    | _ => none
  | "SetIpmiResponse" => do
    match ← fields.fields? ["response"] 1 with
    | [some reply] => return setReply (← CommandReply.ofJson? reply)
    | _ => none
  | "Status" => bare status
  | "Shutdown" => bare shutdown
  | _ => none

end Request

/-! ## Responses -/

namespace Response

def toJson : Response → Json
  | pong => .message "Pong" []
  | hello version => .message "Hello" [("version", .text version)]
  | ok => .message "Ok" []
  | shuttingDown => .message "ShuttingDown" []
  | recordId id => .message "RecordId" [("id", id.toJson)]
  | info i => .message "Info" [("info", i.toJson)]
  | entries es => .message "Entries" [("entries", .array (es.map Entry.toJson))]
  | published delivered records =>
    .message "Published" [("delivered", .nat delivered),
      ("records", .array (records.map RecordId.toJson))]
  | status s =>
    .message "Status" [("uptime_secs", .nat s.uptime), ("sink", .text s.sink),
      ("monitors", .array (s.monitors.map .text)), ("asserted", .nat s.asserted)]
  | refused kind message => .message "Error" [("kind", .text kind.name), ("message", .text message)]

def ofFields? (name : String) (fields : Json) : Option Response :=
  let bare (response : Response) : Option Response :=
    if fields.isBare then some response else none
  match name with
  | "Pong" => bare pong
  | "Hello" => do
    match ← fields.fields? ["version"] 1 with
    | [some version] => return hello (← version.text?)
    | _ => none
  | "Ok" => bare ok
  | "ShuttingDown" => bare shuttingDown
  | "RecordId" => do
    match ← fields.fields? ["id"] 1 with
    | [some id] => return recordId (← RecordId.ofJson? id)
    | _ => none
  | "Info" => do
    match ← fields.fields? ["info"] 1 with
    | [some i] => return info (← StoreInfo.ofJson? i)
    | _ => none
  | "Entries" => do
    match ← fields.fields? ["entries"] 1 with
    | [some es] => return entries (← es.items? Entry.ofJson?)
    | _ => none
  | "Published" => do
    match ← fields.fields? ["delivered", "records"] 2 with
    | [some delivered, some records] =>
      return published (← delivered.count?) (← records.items? RecordId.ofJson?)
    | _ => none
  | "Status" => do
    match ← fields.fields? ["uptime_secs", "sink", "monitors", "asserted"] 4 with
    | [some uptime, some sink, some monitors, some asserted] =>
      return status ⟨← uptime.count?, ← sink.text?, ← monitors.items? Json.text?,
        ← asserted.count?⟩
    | _ => none
  | "Error" => do
    match ← fields.fields? ["kind", "message"] 2 with
    | [some kind, some message] => return refused (← RefusalKind.ofJson? kind) (← message.text?)
    | _ => none
  | _ => none

end Response

/-! ## Bytes -/

namespace Message

/-- Reads a sound JSON message. -/
def ofText? {α : Type} (decode : String → Json → Option α) (text : List Char) : Option α := do
  let json ← Json.ofText? Json.depthLimit text
  if json.isSound Json.depthLimit then
    let (name, fields) ← json.message?
    decode name fields
  else none

/-- Reads a sound JSON message from bytes. -/
def ofBytes? {α : Type} (decode : String → Json → Option α) (bytes : List UInt8) : Option α := do
  ofText? decode (← String.fromUTF8? ⟨bytes.toArray⟩).toList

def toBytes (json : Json) : List UInt8 := json.compact.toByteArray.data.toList

end Message

def Request.ofText? (text : String) : Option Request := Message.ofText? ofFields? text.toList

def Response.ofText? (text : String) : Option Response := Message.ofText? ofFields? text.toList

/-- Reads a message from the bytes that have come. -/
def Message.read {α : Type} (decode : String → Json → Option α) (staysOpen : Bool)
    (bytes : List UInt8) : Except MessageError α :=
  match Frame.read staysOpen bytes with
  | (.error e, _) => .error e
  | (.ok body, _) =>
    match Message.ofBytes? decode body with
    | some message => .ok message
    | none => .error .invalid

def Request.read (staysOpen : Bool) (bytes : List UInt8) : Except MessageError Request :=
  Message.read ofFields? staysOpen bytes

def Response.read (staysOpen : Bool) (bytes : List UInt8) : Except MessageError Response :=
  Message.read ofFields? staysOpen bytes

def Request.write (request : Request) : Except MessageError (List UInt8) :=
  Frame.write (Message.toBytes request.toJson)

def Response.write (response : Response) : Except MessageError (List UInt8) :=
  Frame.write (Message.toBytes response.toJson)

end EventLog
