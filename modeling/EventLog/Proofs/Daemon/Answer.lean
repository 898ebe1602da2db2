import EventLog.Proofs.Daemon.Publish
import EventLog.Proofs.Message.Size

/-!
# EventLog.Proofs.Daemon.Answer

What a client gets for a request.

* `handle_answers`: every answer can be written and read back, and all but the
  entries of the log and refusals are short;
* `every_request_is_answered`: so a client gets the daemon's answer, unless it is
  a list of entries or a refusal that is too long to be sent;
* `long_refusal_is_not_sent`: and there is such a refusal, of a request that is
  short enough.
-/

namespace EventLog

/-! ## Times of entries -/

/-- A field that was not refused was read. -/
theorem Entry.ok_of_field {α : Type} {name : String} {value : List Char} {read : Option α} {a : α}
    (h : Entry.field name value read = .ok a) : read = some a := by
  cases read <;> cases h
  rfl

/-- A line that is read tells a time that can be written. -/
theorem Entry.inRange_of_ofLine? {line : List Char} {entry : Entry}
    (h : Entry.ofLine? line = .ok entry) : entry.time.InRange := by
  rw [Entry.ofLine?] at h
  split at h
  · cases h
  · split at h
    · obtain ⟨time, htime, h⟩ := Step.bind_eq_ok.mp h
      obtain ⟨_, -, h⟩ := Step.bind_eq_ok.mp h
      obtain ⟨_, -, h⟩ := Step.bind_eq_ok.mp h
      have heq : entry.time = time := by
        dsimp only at h
        split at h
        · obtain ⟨_, -, h⟩ := Step.bind_eq_ok.mp h
          split at h <;>
          · obtain ⟨_, -, h⟩ := Step.bind_eq_ok.mp h
            obtain ⟨_, -, h⟩ := Step.bind_eq_ok.mp h
            cases h
            rfl
        · cases h
      rw [heq]
      exact Timestamp.inRange_of_ofText? (ok_of_field htime)
    · cases h

/-- All entries of a log have times that can be written. -/
theorem inRange_of_mem_entriesOf {lines : List (List Char)} {entry : Entry}
    (h : entry ∈ entriesOf lines) : entry.time.InRange := by
  obtain ⟨line, -, hline⟩ := List.mem_filterMap.mp h
  cases hread : Entry.ofLine? line with
  | error e =>
    rw [hread] at hline
    cases hline
  | ok found =>
    rw [hread] at hline
    cases hline
    exact Entry.inRange_of_ofLine? hread

namespace Daemon

open Step

variable {config : Config} {d : Daemon} {outside : Outside}

/-! ## Answers -/

/-- A daemon as a machine holds it: its counts are words of sixty-four bits, and
the times of its files can be written. -/
structure OnMachine (outside : Outside) (d : Daemon) : Prop where
  uptime_lt : outside.uptime < Text.wordLimit
  asserted_lt : d.monitors.state.assertions.size < Text.wordLimit
  info_fits : ∀ i, (d.handle outside .info).1 = .info i → i.Fits

/-- What holds of all answers and of all refusals holds of a result of the pipeline. -/
theorem request_forall {α : Type} {P : Response → Prop} {respond : α → Response}
    {step : PipelineM α} (hok : ∀ a, (d.run step).1 = .ok a → P (respond a))
    (hrefused : ∀ kind message, P (.refused kind message)) : P (d.request respond step).1 := by
  have hrequest : (d.request respond step).1 = Response.ofResult respond (d.run step).1 := rfl
  rw [hrequest]
  cases hrun : (d.run step).1 with
  | error e => exact hrefused _ _
  | ok a => exact hok a hrun

/-- A list of entries comes from the lines of a log. -/
theorem inRange_of_run_entries {entries : List Entry}
    (h : (d.run Pipeline.entries).1 = .ok entries) : ∀ e ∈ entries, e.time.InRange := by
  cases hstore : d.pipeline.store with
  | none =>
    have hrun : (d.run Pipeline.entries).1 = .error (.unsupported "entries") := by
      rw [Daemon.run, Pipeline.entries, run_bind, Pipeline.run_storeFor, hstore]
    rw [hrun] at h
    cases h
  | some store =>
    have hanswer : (d.handle ⟨.epoch, 0, fun _ _ => .status 200⟩ .entries).1 = .entries entries :=
      congrArg (Response.ofResult Response.entries) h
    obtain ⟨lines, _, -, rfl⟩ := Log.lines_of_entries ((handle_entries_eq hstore _).mp hanswer)
    exact fun _ => inRange_of_mem_entriesOf

/-- What a daemon says about itself is short. -/
theorem status_isBrief (outside : Outside) (d : Daemon) :
    (Response.status (d.status outside)).IsBrief := by
  have hname (m : Monitor) : m.name.toList.length ≤ 16 := by cases m <;> decide
  refine ⟨?_, ?_, List.forall_mem_map.mpr fun m _ => hname m⟩
  · show d.config.sink.name.toList.length ≤ 16
    cases d.config.sink with
    | journal unit => exact (by decide : "journal".toList.length ≤ 16)
    | service url => exact (by decide : "logging_service".toList.length ≤ 16)
  · show (d.monitors.enabled.map Monitor.name).length ≤ 5
    rw [List.length_map]
    exact List.length_filter_le ..

/-- An answer that can be written and read back, and that is short unless it is a
list of entries or a refusal. -/
def IsAnswer (response : Response) : Prop :=
  response.Fits ∧ (response.IsBrief ∨ (∃ entries, response = .entries entries) ∨
    ∃ kind message, response = .refused kind message)

theorem isAnswer_refused (kind : RefusalKind) (message : String) :
    IsAnswer (.refused kind message) :=
  ⟨trivial, .inr (.inr ⟨kind, message, rfl⟩)⟩

/-- **Every answer can be written and read back, and most are short.** -/
theorem handle_answers (h : d.Sound config) (hm : d.OnMachine outside) (request : Request) :
    IsAnswer (d.handle outside request).1 := by
  cases request with
  | ping | setProperties | setReply | shutdown => exact ⟨trivial, .inl trivial⟩
  | hello version => exact ⟨trivial, .inl (Nat.le_of_ble_eq_true rfl)⟩
  | add | addOem | clear | delete =>
    exact request_forall (fun _ _ => ⟨trivial, .inl trivial⟩) isAnswer_refused
  | info =>
    exact request_forall (fun i hrun =>
      ⟨hm.info_fits i (congrArg (Response.ofResult Response.info) hrun), .inl trivial⟩)
      isAnswer_refused
  | entries =>
    exact request_forall (fun entries hrun =>
      ⟨inRange_of_run_entries hrun, .inr (.inl ⟨entries, rfl⟩)⟩) isAnswer_refused
  | publish signal =>
    rw [handle, h.publish_eq]
    refine ⟨?_, .inl (length_observe_le outside d signal)⟩
    show (if d.monitors.looksAt signal then 1 else 0) < Text.wordLimit
    split <;> decide
  | status => exact ⟨⟨hm.uptime_lt, hm.asserted_lt⟩, .inl (status_isBrief outside d)⟩

/-! ## Connections -/

/-- A request that is read is carried out, and its answer is sent if it can be. -/
theorem serve_of_write {staysOpen : Bool} {received bytes : List UInt8} {request : Request}
    (hread : Request.read staysOpen received = .ok request)
    (hwrite : (d.handle outside request).1.write = .ok bytes) :
    d.serve outside staysOpen received = ⟨.ok (), bytes, (d.handle outside request).2⟩ := by
  simp only [serve, hread, hwrite]

/-- If it cannot be sent, the request was carried out all the same. -/
theorem serve_of_not_write {staysOpen : Bool} {received : List UInt8} {request : Request}
    {e : MessageError} (hread : Request.read staysOpen received = .ok request)
    (hwrite : (d.handle outside request).1.write = .error e) :
    d.serve outside staysOpen received
      = ⟨.error (.connection e), [], (d.handle outside request).2⟩ := by
  simp only [serve, hread, hwrite]

/-- **What a client gets for a request.**  A request that can be read is carried
out, and its answer is sent in a message from which the client reads it back; but
not if the answer is too long for a message.  Then nothing is sent, although the
request was carried out; and only a list of entries or a refusal is ever so long. -/
theorem every_request_is_answered (hd : d.Reachable config) (hm : d.OnMachine outside)
    {staysOpen : Bool} {received : List UInt8} {request : Request}
    (hread : Request.read staysOpen received = .ok request) :
    let answered := d.handle outside request
    let size := (Message.toBytes answered.1.toJson).length
    let served := d.serve outside staysOpen received
    served.daemon = answered.2 ∧
      (size ≤ Frame.sizeLimit → served.result = .ok () ∧
        ∀ stays, Response.read stays served.sent = .ok answered.1) ∧
      (Frame.sizeLimit < size →
        served.result = .error (.connection (.tooLarge size)) ∧ served.sent = [] ∧
          ((∃ entries, answered.1 = .entries entries) ∨
            ∃ kind message, answered.1 = .refused kind message)) := by
  intro answered size served
  obtain ⟨hfits, hshape⟩ : IsAnswer answered.1 := handle_answers hd.sound hm request
  by_cases hsize : Frame.sizeLimit < size
  · have hwrite : answered.1.write = .error (.tooLarge size) := if_pos hsize
    have hserved : served = _ := serve_of_not_write hread hwrite
    rw [hserved]
    refine ⟨rfl, fun h => absurd hsize (Nat.not_lt.mpr h), fun _ => ⟨rfl, rfl, ?_⟩⟩
    exact hshape.resolve_left fun hbrief => absurd hsize (Nat.not_lt.mpr (hbrief.length_le hfits))
  · have hwrite : answered.1.write = .ok _ := if_neg hsize
    have hserved : served = _ := serve_of_write hread hwrite
    rw [hserved]
    exact ⟨rfl, fun _ => ⟨rfl, fun stays => Response.read_write hfits hwrite stays⟩,
      fun h => absurd h hsize⟩

/-- A daemon that was just started tells a client that asks for the entries of none. -/
theorem entries_request_is_answered :
    let config : Config := { Config.default with logDirectory := ⟨"/log"⟩, socket := ⟨"/run"⟩ }
    let disk : Disk := ⟨.epoch, 1, [([], .directory .epoch), (["log"], .directory .epoch)]⟩
    let outside : Outside := ⟨.epoch, 0, fun _ _ => .status 200⟩
    ∃ d disk' received, Daemon.start config 1 [] disk = (.ok d, disk') ∧
      Request.entries.write = .ok received ∧
      Response.read false (d.serve outside true received).sent = .ok (.entries []) := by
  intro config disk outside
  have hanswers : (Daemon.start config 1 [] disk).1.map (fun d =>
      (d.monitors.state.assertions.size, (d.handle outside .info).1,
        (d.handle outside .entries).1)) = .ok (0, .info ⟨0, none, none⟩, .entries []) := by
    decide +kernel
  rcases hstart : Daemon.start config 1 [] disk with ⟨e | d, disk'⟩ <;> rw [hstart] at hanswers
  · cases hanswers
  · obtain ⟨hsize, hinfo, hentries⟩ := by
      simpa only [Except.map, Except.ok.injEq, Prod.mk.injEq] using hanswers
    have hm : d.OnMachine outside :=
      ⟨by decide, by rw [hsize]; decide, fun i hi => by
        cases hinfo.symm.trans hi
        exact ⟨by decide, fun _ h => (by cases h), fun _ h => (by cases h)⟩⟩
    obtain ⟨received, hwrite⟩ : ∃ received, Request.entries.write = .ok received :=
      Frame.exists_write (by decide +kernel)
    have hread : Request.read true received = .ok .entries := by
      refine Message.read_write (.message ?_ _) (fun _ h => (by cases h)) rfl hwrite true
      exact trivial
    have hserved := (every_request_is_answered (.started hstart) hm hread).2.1
    rw [hentries] at hserved
    exact ⟨d, disk', received, rfl, hwrite, (hserved (by decide +kernel)).2 false⟩

/-! ## A refusal that is too long -/

/-- A sensor path of a comma and so many deletion characters. -/
def deletions (count : Nat) : String :=
  String.ofList (',' :: List.replicate count (Char.ofNat 0x7F))

/-- The sensor path of a request is shown where the request is refused for it. -/
theorem handle_add_of_not_isSensorPath {sensor : String} (h : ¬ IsSensorPath sensor)
    (d : Daemon) (outside : Outside) (message : String) (assert : Bool) (generator : UInt16) :
    (d.handle outside (.add message sensor [] assert generator)).1
      = .refused .invalidSensorPath (RecordError.invalidSensorPath sensor).message := by
  have hfault : (Pipeline.Recording.system message sensor [] assert generator).fault?
      d.pipeline.store.isSome = some (.invalidSensorPath sensor) := by
    rw [Pipeline.Recording.fault?, Pipeline.pathFault?, if_neg h]
    rfl
  have hrun := Pipeline.Recording.run_step (d.surroundings outside)
    (.system message sensor [] assert generator) d.pipeline
  rw [hfault] at hrun
  exact congrArg (Response.ofResult Response.recordId) (congrArg Prod.fst hrun)

/-- A text of control characters is no sensor path. -/
theorem not_isSensorPath_deletions (count : Nat) : ¬ IsSensorPath (deletions count) := by
  intro h
  rw [IsSensorPath, deletions, String.toList_ofList] at h
  exact (h ',' (.head _)).1 rfl

theorem length_flatMap_replicate (f : Char → List Char) (c : Char) (count : Nat) :
    ((List.replicate count c).flatMap f).length = (f c).length * count := by
  induction count with
  | zero => rfl
  | succ count ih =>
    rw [List.replicate_succ, List.flatMap_cons, List.length_append, ih, Nat.mul_succ]
    omega

/-- A request with such a path is not much longer than the path, in characters. -/
theorem length_add_deletions_le (count : Nat) :
    (Message.toBytes (Request.add "" (deletions count) [] true 0).toJson).length
      ≤ 4 * (count + 1000) := by
  have hpath : Json.Within (count + 3) (.text (deletions count)) := by
    have hone : (Json.escapedChar (Char.ofNat 0x7F)).length = 1 := by decide
    have hcomma : Json.escapedChar ',' = [','] := by decide
    simp only [Json.Within, Json.text, Json.compactChars, Json.stringText?, Json.stringText,
      deletions, String.toList_ofList, List.flatMap_cons, hcomma, List.length_append,
      List.length_cons, List.length_nil, length_flatMap_replicate, hone]
    omega
  have hempty : Json.Within 2 (.text "") := Nat.le_refl 2
  have hdata : Json.Within 2 (.bytes []) := Nat.le_refl 2
  have hassert : Json.Within 4 (.bool true) := Nat.le_refl 4
  have hbytes := (Message.length_toBytes_bounds
    (Request.add "" (deletions count) [] true 0).toJson).2
  have hmessage : Json.Within _ (Request.add "" (deletions count) [] true 0).toJson :=
    Json.Within.message (by simp) (by simp)
      (.cons hempty (.cons hpath (.cons hdata (.cons hassert (.cons (.nat (by decide)) .nil)))))
  simp only [List.map_cons, List.map_nil, List.sum_cons, List.sum_nil, Json.Within] at hmessage
  omega

/-- Where a text is shown in quotes, it is as long as what is written for it. -/
theorem length_flatMap_quoted_ge (f : Char → List Char) (front text behind : String) :
    ((text.toList.flatMap Text.quotedChar).flatMap f).length
      ≤ ((front ++ Text.quoted text ++ behind).toList.flatMap f).length := by
  simp only [Text.quoted, String.toList_append, String.toList_ofList, List.flatMap_append,
    List.flatMap_cons, List.length_append]
  omega

/-- A refusal is as long as its text at least. -/
theorem length_refused_ge (kind : RefusalKind) (message : String) :
    (message.toList.flatMap Json.escapedChar).length
      ≤ (Message.toBytes (Response.refused kind message).toJson).length := by
  refine Nat.le_trans ?_ (Message.length_toBytes_bounds _).1
  simp only [Response.toJson, Json.message, Json.ofFields, Json.text, List.map_cons, List.map_nil,
    Json.compactChars, Json.compactMembers, Json.stringText?, Json.stringText, List.length_append,
    List.length_cons]
  omega

/-- A deletion character takes seven characters where a refusal shows it. -/
theorem length_refused_deletions_ge (kind : RefusalKind) (count : Nat) :
    7 * count ≤ (Message.toBytes (Response.refused kind
      (RecordError.invalidSensorPath (deletions count)).message).toJson).length := by
  have hone : ((Text.quotedChar (Char.ofNat 0x7F)).flatMap Json.escapedChar).length = 7 := by
    decide +kernel
  have hshown : 7 * count
      ≤ (((deletions count).toList.flatMap Text.quotedChar).flatMap Json.escapedChar).length := by
    rw [deletions, String.toList_ofList, List.flatMap_assoc, List.flatMap_cons,
      List.length_append, length_flatMap_replicate, hone]
    omega
  exact hshown.trans ((length_flatMap_quoted_ge _ _ _ _).trans (length_refused_ge kind _))

/-- A refusal that shows a long sensor path is not sent, although the request that
it refuses was short enough: a client gets no answer. -/
theorem long_refusal_is_not_sent :
    let config : Config := { Config.default with logDirectory := ⟨"/log"⟩, socket := ⟨"/run"⟩ }
    let disk : Disk := ⟨.epoch, 1, [([], .directory .epoch), (["log"], .directory .epoch)]⟩
    let outside : Outside := ⟨.epoch, 0, fun _ _ => .status 200⟩
    let request : Request := .add "" (deletions 600000) [] true 0
    ∃ d disk' received, Daemon.start config 1 [] disk = (.ok d, disk') ∧
      request.write = .ok received ∧ Request.read true received = .ok request ∧
      (d.serve outside true received).sent = [] ∧
      ∀ stays, Response.read stays (d.serve outside true received).sent
        ≠ .ok (d.handle outside request).1 := by
  intro config disk outside request
  have hstarts : (Daemon.start config 1 [] disk).1.isOk = true := by decide +kernel
  rcases hstart : Daemon.start config 1 [] disk with ⟨e | d, disk'⟩ <;> rw [hstart] at hstarts
  · cases hstarts
  obtain ⟨received, hwrite⟩ : ∃ received, request.write = .ok received :=
    Frame.exists_write ((length_add_deletions_le 600000).trans (by decide))
  have hread : Request.read true received = .ok request := Request.read_write_add hwrite true
  have hanswer : (d.handle outside request).1 = _ :=
    handle_add_of_not_isSensorPath (not_isSensorPath_deletions 600000) d outside "" true 0
  obtain ⟨e, hlong⟩ : ∃ e, (d.handle outside request).1.write = .error e := by
    rw [hanswer]
    exact Frame.exists_refusal (Nat.lt_of_lt_of_le (by decide)
      (length_refused_deletions_ge _ 600000))
  have hsent : (d.serve outside true received).sent = [] := by
    rw [serve_of_not_write hread hlong]
  refine ⟨d, disk', received, rfl, hwrite, hread, hsent, fun stays => ?_⟩
  rw [hsent]
  cases stays <;> exact fun h => by cases h

end Daemon

end EventLog
