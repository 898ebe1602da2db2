import EventLog.Proofs.Value.Codec

/-!
# EventLog.Proofs.Message.Request

What is written of a request is read back, and so messages round trip.

* `Request.Plain`: a request without doubles;
* `Request.Plain.exists_message`: it is its name and its fields, and is understood by them;
* `Request.Plain.fits`: it is made of values that are read back as JSON;
* `Message.round_trip`: requests and responses come back from their bytes.
-/

namespace EventLog

/-! ## Replies to commands -/

/-- Replies to commands are read back. -/
theorem CommandReply.ofJson?_toJson (r : CommandReply) :
    CommandReply.ofJson? r.toJson = some r := by
  have hfields : r.toJson.fields? ["netfn", "lun", "cmd", "cc", "data"] 5 = _ :=
    Json.fields?_ofFields (by simp) 5
  rw [ofJson?, hfields]
  simp

theorem CommandReply.fits (r : CommandReply) {depth : Nat} : (r.toJson).Fits (depth + 2) :=
  .fields ⟨.byte _, .byte _, .byte _, .byte _, .bytes _⟩

/-! ## Requests -/

namespace Request

/-- A request without doubles, whose dictionaries are in order. -/
def Plain : Request → Prop
  | publish signal => signal.Plain
  | setProperties _ _ properties => Value.PlainProperties properties
  | _ => True

variable {r : Request} {depth : Nat}

/-- Within a field of a message one bracket less is open. -/
theorem nesting_le_of_message {name : String} {fields : List (String × Json)}
    (h : (Json.message name fields).nesting ≤ depth + 1) :
    ∀ field ∈ fields, field.2.nesting ≤ depth := by
  obtain ⟨below, hdepth, hfields⟩ := Json.exists_depth_of_ofFields h
  obtain rfl : depth = below := Nat.succ.inj hdepth
  exact fun field hfield => hfields field (.tail _ hfield)

/-- **The fields of a request are read back** by its name. -/
theorem Plain.exists_message (h : r.Plain) (hn : r.toJson.nesting ≤ Json.depthLimit) :
    ∃ name fields, r.toJson = .message name fields ∧ (∀ field ∈ fields, field.1 ≠ "type") ∧
      ofFields? name (.ofFields fields) = some r := by
  cases r with
  | ping | clear | info | entries | status | shutdown => exact ⟨_, _, rfl, by simp, rfl⟩
  | hello version =>
    refine ⟨_, _, rfl, by simp, ?_⟩
    rw [ofFields?, Json.fields?_single]
    rfl
  | add message sensor data assert generator =>
    exact ⟨_, _, rfl, by simp, ofFields?_add message sensor data assert generator⟩
  | addOem message data recordType =>
    refine ⟨_, _, rfl, by simp, ?_⟩
    have hfields : (Json.ofFields [("message", .text message), ("event_data", .bytes data),
        ("record_type", .nat recordType.toNat)]).fields?
        ["message", "event_data", "record_type"] 3 = _ := Json.fields?_ofFields (by simp) 3
    rw [ofFields?, hfields]
    simp only [Option.bind_eq_bind, List.map_cons, List.map_nil, Option.bind_some,
      Json.bytes?_bytes, Json.byte?_nat]
    rfl
  | delete id =>
    refine ⟨_, _, rfl, by simp, ?_⟩
    simp only [ofFields?, Json.fields?_single, Option.bind_eq_bind, Option.bind_some,
      RecordId.ofJson?_toJson, Option.pure_def]
  | publish signal =>
    have hsignal : signal.toJson.nesting ≤ Json.depthLimit :=
      (nesting_le_of_message hn ("signal", _) (.head _)).trans (Nat.le_succ _)
    refine ⟨_, _, rfl, by simp, ?_⟩
    simp only [ofFields?, Json.fields?_single, Option.bind_eq_bind, Option.bind_some,
      Signal.Plain.ofJson?_toJson h true hsignal, Option.pure_def]
  | setProperties path interface properties =>
    have hproperties : (Value.propertiesToJson properties).nesting ≤ Json.depthLimit :=
      (nesting_le_of_message hn ("properties", Value.propertiesToJson properties) (by simp)).trans
        (Nat.le_succ _)
    refine ⟨_, _, rfl, by simp, ?_⟩
    have hfields : (Json.ofFields [("path", .text path), ("interface", .text interface),
        ("properties", Value.propertiesToJson properties)]).fields?
        ["path", "interface", "properties"] 3 = _ := Json.fields?_ofFields (by simp) 3
    rw [ofFields?, hfields]
    simp only [Option.bind_eq_bind, List.map_cons, List.map_nil, Option.bind_some,
      Value.propertiesOfJson?_toJson h true hproperties]
    rfl
  | setReply reply =>
    refine ⟨_, _, rfl, by simp, ?_⟩
    simp only [ofFields?, Json.fields?_single, Option.bind_eq_bind, Option.bind_some,
      CommandReply.ofJson?_toJson, Option.pure_def]

/-- **A request without doubles** is made of what is read back as JSON. -/
theorem Plain.fits (h : r.Plain) (hn : r.toJson.nesting ≤ depth + 3) :
    r.toJson.Fits (depth + 3) := by
  cases r <;> refine .message ?_ _
  case ping | clear | info | entries | status | shutdown => exact trivial
  case hello version => exact .text version
  case add message sensor data assert generator =>
    exact ⟨.text message, .text sensor, .bytes data, .bool assert, .word generator⟩
  case addOem message data recordType => exact ⟨.text message, .bytes data, .byte recordType⟩
  case delete id => exact .word _
  case publish signal =>
    exact Signal.Plain.fits h (nesting_le_of_message hn ("signal", _) (.head _))
  case setProperties path interface properties =>
    have hproperties := nesting_le_of_message hn
      ("properties", Value.propertiesToJson properties) (by simp)
    exact ⟨.text path, .text interface,
      Value.fits_properties hproperties fun entry hentry => (h.2 entry hentry).fits⟩
  case setReply reply => exact reply.fits

end Request

/-! ## Messages -/

namespace Message

/-- **Messages round trip.**  A request without doubles comes back from its bytes, if
no more brackets are open at one place of its text than a reader allows.  So does a
response, if its counts are words of sixty-four bits and its times can be written;
those of the years 0 to 9999 can. -/
theorem round_trip :
    (∀ request : Request, request.Plain → request.toJson.nesting ≤ Json.depthLimit →
      ofBytes? Request.ofFields? (toBytes request.toJson) = some request) ∧
    ∀ response : Response, response.Fits →
      ofBytes? Response.ofFields? (toBytes response.toJson) = some response := by
  refine ⟨fun request h hn => ?_, fun response h => ?_⟩
  · have hfits := h.fits hn
    obtain ⟨name, fields, hmessage, htype, hdecode⟩ := h.exists_message hn
    rw [hmessage] at hfits ⊢
    exact (ofBytes?_toBytes hfits htype).trans hdecode
  · have hfits := h.toJson 123
    obtain ⟨name, fields, hmessage, htype, hdecode⟩ := Response.exists_message h
    rw [hmessage] at hfits ⊢
    exact (ofBytes?_toBytes hfits htype).trans hdecode

/-- A signal with the lowest and the highest numbers and a dictionary in a dictionary,
and an entry with its time. -/
theorem round_trip_of_nested :
    let inner : Value := .dict [("", .str "\"\\\n"), ("é", .int64 (-9223372036854775808))]
    let signal : Signal := ⟨":1.4", "/a", "xyz.A", "B",
      [.uint64 18446744073709551615, .dict [("a", inner), ("b", .bytes [0, 255])], .bool true]⟩
    let entry : Entry := ⟨.epoch, ⟨1⟩, 2, [255], some 32, none, some true⟩
    ofBytes? Request.ofFields? (toBytes (Request.publish signal).toJson)
        = some (.publish signal) ∧
      ofBytes? Response.ofFields? (toBytes (Response.entries [entry]).toJson)
        = some (.entries [entry]) := by
  intro inner signal entry
  have hinner : inner.Plain :=
    .dict (by decide) (List.forall_iff_forall_mem.mp ⟨.str _, .int64 _⟩)
  have houter : (Value.dict [("a", inner), ("b", .bytes [0, 255])]).Plain :=
    .dict (by decide) (List.forall_iff_forall_mem.mp ⟨hinner, .bytes _⟩)
  have hplain : (Request.publish signal).Plain :=
    List.forall_iff_forall_mem.mp ⟨.uint64 _, houter, .bool _⟩
  have hfits : (Response.entries [entry]).Fits :=
    List.forall_mem_singleton.mpr (by decide +kernel)
  exact ⟨round_trip.1 _ hplain (by decide), round_trip.2 _ hfits⟩

end Message

end EventLog
