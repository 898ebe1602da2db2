import EventLog.Proofs.Disk.Files
import EventLog.Proofs.Json.Shape
import EventLog.Proofs.Time.Message

/-!
# EventLog.Proofs.Message.Codec

What is written of a response is read back.

* `StoreInfo.Fits`, `Response.Fits`: counts are words of sixty-four bits, and
  times can be written;
* `Response.exists_message`: a response is its name and its fields, and is
  understood by them;
* `Response.Fits.toJson`: it is made of values that are read back as JSON;
* `Message.read_write`: a message is read back from its bytes, and so is a
  response (`Response.read_write`).
-/

namespace EventLog

/-! ## Parts of messages -/

/-- Particulars of a log whose count is a word and whose times can be written. -/
structure StoreInfo.Fits (i : StoreInfo) : Prop where
  entries_lt : i.entries < Text.wordLimit
  lastAdd_inRange : ∀ t ∈ i.lastAdd, t.InRange
  lastErase_inRange : ∀ t ∈ i.lastErase, t.InRange

/-- A response whose counts are words of sixty-four bits and whose times can be written. -/
def Response.Fits : Response → Prop
  | .info i => i.Fits
  | .entries es => ∀ e ∈ es, e.time.InRange
  | .published delivered _ => delivered < Text.wordLimit
  | .status s => s.uptime < Text.wordLimit ∧ s.asserted < Text.wordLimit
  | _ => True

/-- Record numbers are read back. -/
theorem RecordId.ofJson?_toJson (id : RecordId) : RecordId.ofJson? id.toJson = some id := by
  have hword : id.toJson.word? = some id.number := Json.word?_nat id.number
  rw [RecordId.ofJson?, hword, Option.map_some]

/-- Points in time are read back. -/
theorem Timestamp.ofJson?_toJson {t : Timestamp} (h : t.InRange) :
    Timestamp.ofJson? t.toJson = some t := by
  rw [Timestamp.ofJson?, Timestamp.toJson, Json.text, Json.text?, Option.bind_some,
    ofMessage?_messageText h]

/-- A value that may be missing is read back. -/
theorem Entry.optional_option {α : Type} {encode : α → Json} {decode : Json → Option α}
    {value : Option α} (hnull : ∀ a, encode a ≠ .null)
    (h : ∀ a ∈ value, decode (encode a) = some a) :
    Entry.optional decode (some (Json.option encode value)) = some value := by
  cases value with
  | none => rfl
  | some a =>
    have hread : (encode a).nullable? decode = (decode (encode a)).map some := by
      rw [Json.nullable?.eq_def]
      split
      · next heq => exact absurd heq (hnull a)
      · rfl
    rw [Entry.optional, Json.option, hread, h a rfl]
    rfl

/-- Entries are read back. -/
theorem Entry.ofJson?_toJson {e : Entry} (h : e.time.InRange) :
    Entry.ofJson? e.toJson = some e := by
  have hfields : e.toJson.fields? ["timestamp", "id", "record_type", "data", "generator_id",
      "sensor_path", "assert"] 7 = _ := Json.fields?_ofFields (by simp) 7
  have hgenerator : optional Json.word?
      (some (Json.option (fun g => Json.nat g.toNat) e.generator)) = some e.generator :=
    optional_option (fun _ h => by cases h) fun g _ => Json.word?_nat g
  have hsensor : optional Json.text? (some (Json.option Json.text e.sensor)) = some e.sensor :=
    optional_option (fun _ h => by cases h) fun _ _ => rfl
  have hassert : optional Json.bool? (some (Json.option Json.bool e.assert)) = some e.assert :=
    optional_option (fun _ h => by cases h) fun _ _ => rfl
  rw [Entry.ofJson?, hfields]
  simp only [Option.bind_eq_bind, List.map_cons, List.map_nil, Option.bind_some,
    Timestamp.ofJson?_toJson h, RecordId.ofJson?_toJson, Json.byte?_nat, Json.bytes?_bytes,
    hgenerator, hsensor, hassert]
  rfl

/-- Particulars of a log are read back. -/
theorem StoreInfo.ofJson?_toJson {i : StoreInfo} (h : i.Fits) :
    StoreInfo.ofJson? i.toJson = some i := by
  have hfields : i.toJson.fields? ["entries", "last_add", "last_erase"] 3 = _ :=
    Json.fields?_ofFields (by simp) 3
  have hadd := Entry.optional_option (fun _ h => by cases h) fun t ht =>
    Timestamp.ofJson?_toJson (h.lastAdd_inRange t ht)
  have herase := Entry.optional_option (fun _ h => by cases h) fun t ht =>
    Timestamp.ofJson?_toJson (h.lastErase_inRange t ht)
  rw [StoreInfo.ofJson?, hfields]
  simp only [Option.bind_eq_bind, List.map_cons, List.map_nil, Option.bind_some,
    Json.count?_nat h.entries_lt, hadd, herase]
  rfl

/-- **The fields of a response are read back** by its name. -/
theorem Response.exists_message {r : Response} (h : r.Fits) :
    ∃ name fields, r.toJson = .message name fields ∧ (∀ field ∈ fields, field.1 ≠ "type") ∧
      ofFields? name (.ofFields fields) = some r := by
  cases r with
  | pong | ok | shuttingDown => exact ⟨_, _, rfl, by simp, rfl⟩
  | hello version =>
    refine ⟨_, _, rfl, by simp, ?_⟩
    rw [ofFields?, Json.fields?_single]
    rfl
  | recordId id =>
    refine ⟨_, _, rfl, by simp, ?_⟩
    simp only [ofFields?, Json.fields?_single, Option.bind_eq_bind, Option.bind_some,
      RecordId.ofJson?_toJson, Option.pure_def]
  | info i =>
    refine ⟨_, _, rfl, by simp, ?_⟩
    simp only [ofFields?, Json.fields?_single, Option.bind_eq_bind, Option.bind_some,
      StoreInfo.ofJson?_toJson h, Option.pure_def]
  | entries es =>
    refine ⟨_, _, rfl, by simp, ?_⟩
    simp only [ofFields?, Json.fields?_single, Option.bind_eq_bind, Option.bind_some,
      Json.items?_map fun e he => Entry.ofJson?_toJson (h e he), Option.pure_def]
  | published delivered ids =>
    refine ⟨_, _, rfl, by simp, ?_⟩
    have hfields : (Json.ofFields [("delivered", .nat delivered),
        ("records", .array (ids.map RecordId.toJson))]).fields? ["delivered", "records"] 2 = _ :=
      Json.fields?_ofFields (by simp) 2
    rw [ofFields?, hfields]
    simp only [Option.bind_eq_bind, List.map_cons, List.map_nil, Option.bind_some,
      Json.count?_nat h, Json.items?_map fun id _ => RecordId.ofJson?_toJson id, Option.pure_def]
  | status s =>
    refine ⟨_, _, rfl, by simp, ?_⟩
    have hfields : (Json.ofFields [("uptime_secs", .nat s.uptime), ("sink", .text s.sink),
        ("monitors", .array (s.monitors.map .text)), ("asserted", .nat s.asserted)]).fields?
        ["uptime_secs", "sink", "monitors", "asserted"] 4 = _ :=
      Json.fields?_ofFields (by simp) 4
    rw [ofFields?, hfields]
    have hnames : (Json.array (s.monitors.map .text)).items? Json.text? = some s.monitors :=
      Json.items?_map fun _ _ => rfl
    simp only [Option.bind_eq_bind, List.map_cons, List.map_nil, Option.bind_some,
      Json.count?_nat h.1, Json.count?_nat h.2, hnames, Json.text, Json.text?, Option.pure_def]
  | refused kind message =>
    refine ⟨_, _, rfl, by simp, ?_⟩
    have hfields : (Json.ofFields [("kind", .text kind.name), ("message", .text message)]).fields?
        ["kind", "message"] 2 = _ := Json.fields?_ofFields (by simp) 2
    have hkind : RefusalKind.ofJson? (.text kind.name) = some kind := by cases kind <;> decide
    rw [ofFields?, hfields]
    simp only [Option.bind_eq_bind, List.map_cons, List.map_nil, Option.bind_some, hkind]
    rfl

/-! ## Values of messages -/

namespace Json.Fits

variable {depth : Nat}

theorem byte (b : UInt8) : Fits depth (.nat b.toNat) :=
  .nat (Nat.lt_trans b.toNat_lt (by decide))

theorem word (w : UInt16) : Fits depth (.nat w.toNat) :=
  .nat (Nat.lt_trans w.toNat_lt (by decide))

theorem bytes (bs : List UInt8) : Fits (depth + 1) (.bytes bs) :=
  .array (List.forall_mem_map.mpr fun b _ => byte b)

theorem map {α : Type} {encode : α → Json} {as : List α} (h : ∀ a ∈ as, Fits depth (encode a)) :
    Fits (depth + 1) (.array (as.map encode)) :=
  .array (List.forall_mem_map.mpr h)

theorem option {α : Type} {encode : α → Json} {value : Option α}
    (h : ∀ a ∈ value, Fits depth (encode a)) : Fits depth (.option encode value) := by
  cases value with
  | none => exact .null
  | some a => exact h a rfl

theorem fields {members : List (String × Json)}
    (h : members.Forall fun member => Fits depth member.2) : Fits (depth + 1) (.ofFields members) :=
  .object (List.forall_iff_forall_mem.mp h)

theorem message {members : List (String × Json)}
    (h : members.Forall fun member => Fits depth member.2) (name : String) :
    Fits (depth + 1) (.message name members) :=
  .fields (List.forall_cons .. |>.mpr ⟨.text name, h⟩)

end Json.Fits

/-- An entry takes two brackets. -/
theorem Entry.fits_toJson (e : Entry) {depth : Nat} : (e.toJson).Fits (depth + 2) :=
  .fields ⟨.text _, .word _, .byte _, .bytes _, .option fun g _ => .word g,
    .option fun s _ => .text s, .option fun b _ => .bool b⟩

theorem StoreInfo.Fits.toJson {i : StoreInfo} (h : i.Fits) {depth : Nat} :
    i.toJson.Fits (depth + 1) :=
  .fields ⟨.nat h.entries_lt, .option fun _ _ => .text _, .option fun _ _ => .text _⟩

/-- A response takes four brackets at most. -/
theorem Response.Fits.toJson {r : Response} (h : r.Fits) (depth : Nat) :
    r.toJson.Fits (depth + 4) := by
  cases r <;> refine .message ?_ _
  case pong | ok | shuttingDown => exact trivial
  case hello version => exact .text version
  case recordId id => exact .word _
  case info i => exact StoreInfo.Fits.toJson h
  case entries es => exact .map fun e _ => e.fits_toJson
  case published delivered ids => exact ⟨.nat h, .map fun id _ => .word _⟩
  case status s => exact ⟨.nat h.1, .text _, .map fun name _ => .text name, .nat h.2⟩
  case refused kind message => exact ⟨.text _, .text message⟩

/-! ## Bytes -/

namespace Message

/-- A message is understood by its name and its fields. -/
theorem ofBytes?_toBytes {α : Type} {decode : String → Json → Option α} {name : String}
    {fields : List (String × Json)} (hfits : (Json.message name fields).Fits Json.depthLimit)
    (htype : ∀ field ∈ fields, field.1 ≠ "type") :
    ofBytes? decode (toBytes (.message name fields)) = decode name (.ofFields fields) := by
  have htext : String.fromUTF8? ⟨(toBytes (.message name fields)).toArray⟩
      = some (Json.compact (.message name fields)) := Disk.fromUTF8?_eq_some.mpr rfl
  rw [ofBytes?, htext, Option.bind_eq_bind, Option.bind_some, ofText?, Json.compact,
    String.toList_ofList, Json.ofText?_compactChars hfits]
  simp only [Option.bind_eq_bind, Option.bind_some, hfits.isSound, if_true,
    Json.message?_message htype]

/-- **A message that is written is read back**, by whoever understands its fields. -/
theorem read_write {α : Type} {decode : String → Json → Option α} {message : α} {name : String}
    {fields : List (String × Json)} (hfits : (Json.message name fields).Fits Json.depthLimit)
    (htype : ∀ field ∈ fields, field.1 ≠ "type")
    (hdecode : decode name (.ofFields fields) = some message) {sent : List UInt8}
    (hwrite : Frame.write (toBytes (.message name fields)) = .ok sent) (staysOpen : Bool) :
    read decode staysOpen sent = .ok message := by
  have hframe := Frame.read_write_append hwrite staysOpen []
  rw [List.append_nil] at hframe
  rw [read, hframe]
  simp only [ofBytes?_toBytes hfits htype, hdecode]

end Message

/-- **A response is read back** from the bytes that are sent for it. -/
theorem Response.read_write {r : Response} (h : r.Fits) {sent : List UInt8}
    (hwrite : r.write = .ok sent) (staysOpen : Bool) : Response.read staysOpen sent = .ok r := by
  have hfits := h.toJson 123
  obtain ⟨name, fields, hmessage, htype, hdecode⟩ := exists_message h
  rw [write, hmessage] at hwrite
  rw [hmessage] at hfits
  exact Message.read_write hfits htype hdecode hwrite staysOpen

/-- The fields of a request to add a record are read back. -/
theorem Request.ofFields?_add (message sensor : String) (data : List UInt8) (assert : Bool)
    (generator : UInt16) :
    ofFields? "Add" (.ofFields [("message", .text message), ("sensor_path", .text sensor),
      ("event_data", .bytes data), ("assert", .bool assert),
      ("generator_id", .nat generator.toNat)])
      = some (add message sensor data assert generator) := by
  have hfields : (Json.ofFields [("message", .text message), ("sensor_path", .text sensor),
      ("event_data", .bytes data), ("assert", .bool assert),
      ("generator_id", .nat generator.toNat)]).fields?
      ["message", "sensor_path", "event_data", "assert", "generator_id"] 5 = _ :=
    Json.fields?_ofFields (by simp) 5
  rw [ofFields?, hfields]
  simp only [Option.bind_eq_bind, List.map_cons, List.map_nil, Option.bind_some,
    Json.bytes?_bytes, Json.word?_nat]
  rfl

/-- **A request to add a record is read back** from the bytes that are sent for it. -/
theorem Request.read_write_add {message sensor : String} {data : List UInt8} {assert : Bool}
    {generator : UInt16} {sent : List UInt8}
    (hwrite : (add message sensor data assert generator).write = .ok sent) (staysOpen : Bool) :
    Request.read staysOpen sent = .ok (add message sensor data assert generator) := by
  refine Message.read_write (.message ?_ _) (by simp)
    (ofFields?_add message sensor data assert generator) hwrite staysOpen
  exact ⟨.text message, .text sensor, .bytes data, .bool assert, .word generator⟩

end EventLog
