import EventLog.Monitor.Process
import EventLog.Proofs.Step

/-!
# EventLog.Proofs.Monitor.Observation

What monitors observe, and what they ask for it.

* `Yields`: a step asks for properties only, and what it gives has a property;
* `Record.IsRaised`: a record that the controller itself raises against a source;
* `Observation.Tells`: the notice of a change is a record of its source and direction;
* `Crossing.path_of_ofSignal?`, `HostError.eq_of_ofSignal?` and their likes: what is
  read out of a signal;
* `Crossing.observe_yields`, `Watchdog.observe_yields`, `HostError.observe_yields`:
  what the events come to.
-/

namespace EventLog

open Step

/-! ## Questions -/

/-- A question goes to the host's management interface. -/
def BusQuery.isCommand : BusQuery → Bool
  | .command .. => true
  | _ => false

/-- No question goes to the host's management interface. -/
def AsksNoCommand (queries : List BusQuery) : Prop := ∀ query ∈ queries, query.isCommand = false

theorem asksNoCommand_nil : AsksNoCommand [] := fun _ h => absurd h List.not_mem_nil

namespace QueryM

variable {α β : Type}

/-- A step asks no command, and what it gives has a property. -/
def Yields (P : α → Prop) (x : QueryM α) : Prop :=
  ∀ queries, AsksNoCommand queries →
    AsksNoCommand (x.run queries).2 ∧ ∀ a asked, x.run queries = (.ok a, asked) → P a

variable {P : α → Prop} {Q : β → Prop}

theorem Yields.pure {a : α} (h : P a) : Yields P (Pure.pure a : QueryM α) :=
  fun _ hqueries => ⟨hqueries, fun _ _ hrun => by cases hrun; exact h⟩

theorem Yields.throw (e : MonitorError) : Yields P (MonadExcept.throw e : QueryM α) :=
  fun _ hqueries => ⟨hqueries, fun _ _ hrun => by cases hrun⟩

/-- Steps one behind the other yield what the last one does, of what the first yields. -/
theorem Yields.bind {x : QueryM α} {f : α → QueryM β} (hx : Yields P x)
    (hf : ∀ a, P a → Yields Q (f a)) : Yields Q (x >>= f) := by
  intro queries hqueries
  obtain ⟨hasks, hgives⟩ := hx queries hqueries
  rw [run_bind]
  rcases hrun : x.run queries with ⟨e | a, asked⟩ <;> rw [hrun] at hasks
  · exact ⟨hasks, fun _ _ h => by cases h⟩
  · exact hf a (hgives a asked hrun) asked hasks

theorem Yields.imp {P' : α → Prop} {x : QueryM α} (hx : Yields P x) (h : ∀ a, P a → P' a) :
    Yields P' x := fun queries hqueries =>
  ⟨(hx queries hqueries).1, fun a asked hrun => h a ((hx queries hqueries).2 a asked hrun)⟩

/-- A question that is no command yields any answer. -/
theorem yields_ask {query : BusQuery} (h : query.isCommand = false) (answer : Except BusError α) :
    Yields (fun _ => True) (ask query answer) := by
  intro queries hqueries
  refine ⟨?_, fun _ _ _ => trivial⟩
  have hmore : AsksNoCommand (queries ++ [query]) :=
    List.forall_mem_append.mpr ⟨hqueries, List.forall_mem_singleton.mpr h⟩
  cases answer <;> exact hmore

theorem yields_properties (peers : Peers) (service path interface : String) :
    Yields (fun _ => True) (properties peers service path interface) := yields_ask rfl _

theorem yields_property (peers : Peers) (service path interface name : String) :
    Yields (fun _ => True) (property peers service path interface name) := yields_ask rfl _

/-- A value of the type that is needed is what the step yields. -/
theorem yields_typed (value : Except ValueError α) :
    Yields (fun a => value = .ok a) (typed value) := by
  cases value
  · exact .throw _
  · exact .pure rfl

/-- A record that passed its checks is what the step yields. -/
theorem yields_made (record : Except RecordError Record) :
    Yields (fun made => record = .ok made) (made record) := by
  cases record
  · exact .throw _
  · exact .pure rfl

end QueryM

open QueryM

/-! ## Records -/

/-- A record of a source says whether something came or went, with some data. -/
structure Record.Tells (source : String) (assert : Bool) (data : List UInt8) (record : Record) :
    Prop where
  source_eq : record.sensorPath? = some source
  assert_eq : record.assert? = some assert
  data_eq : record.data = data

/-- A record that the controller itself raises against a source. -/
structure Record.IsRaised (source : String) (assert : Bool) (data : List UInt8) (record : Record) :
    Prop where
  isSensorPath : IsSensorPath source
  recordType_eq : record.recordType = systemRecordType
  origin_eq : record.origin = .system controllerGenerator source assert
  data_eq : record.data = data

namespace Record

variable {source : String} {assert : Bool} {data : List UInt8} {record : Record}

/-- What the constructor of system records makes is raised by the controller. -/
theorem isRaised_of_system? {message : String}
    (h : system? message source data assert controllerGenerator = .ok record) :
    record.IsRaised source assert data := by
  obtain ⟨_, -, h⟩ := bind_eq_ok.mp h
  obtain ⟨_, hpath, h⟩ := bind_eq_ok.mp h
  cases h
  refine ⟨?_, rfl, rfl, rfl⟩
  rw [checkSensorPath] at hpath
  split at hpath
  · assumption
  · cases hpath

theorem IsRaised.withMetadata (h : record.IsRaised source assert data) (key value : String) :
    (record.withMetadata key value).IsRaised source assert data := ⟨h.1, h.2, h.3, h.4⟩

/-- A record that is raised tells its source, its direction and its data. -/
theorem IsRaised.tells (h : record.IsRaised source assert data) :
    record.Tells source assert data :=
  ⟨by rw [sensorPath?, h.origin_eq], by rw [assert?, h.origin_eq], h.data_eq⟩

end Record

/-- An observation is a record, and changes a condition or none. -/
def Observation.Tells (source : String) (assert : Bool) (data : List UInt8)
    (kind? : Option String) (o : Observation) : Prop :=
  ∃ record : Record, o.notice = .record record ∧ record.Tells source assert data ∧
    o.change = kind?.map fun kind => ⟨⟨source, kind⟩, assert⟩

/-- An observation is a record that the controller raises, and changes a condition or none. -/
def Observation.IsRaised (source : String) (assert : Bool) (data : List UInt8)
    (kind? : Option String) (o : Observation) : Prop :=
  ∃ record : Record, o.notice = .record record ∧ record.IsRaised source assert data ∧
    o.change = kind?.map fun kind => ⟨⟨source, kind⟩, assert⟩

/-- An observation tells its source, its direction and its data. -/
theorem Observation.IsRaised.tells {source : String} {assert : Bool} {data : List UInt8}
    {kind? : Option String} {o : Observation} (h : o.IsRaised source assert data kind?) :
    o.Tells source assert data kind? := by
  obtain ⟨record, hnotice, hraised, hchange⟩ := h
  exact ⟨record, hnotice, hraised.tells, hchange⟩

/-! ## Events that are read -/

/-- A signal is read exactly if the value is there. -/
theorem Signal.reading_eq_ok {α : Type} {signal : Signal} {value : Except ValueError α} {a : α} :
    signal.reading value = .ok a ↔ value = .ok a := by cases value <;> simp [Signal.reading]

/-- A crossing is at the path of its signal. -/
theorem Crossing.path_of_ofSignal? {signal : Signal} {c : Crossing}
    (h : ofSignal? signal = .ok c) : c.path = signal.path := by
  obtain ⟨sensor, -, h⟩ := bind_eq_ok.mp h
  obtain ⟨interface, -, h⟩ := bind_eq_ok.mp h
  obtain ⟨event, -, h⟩ := bind_eq_ok.mp h
  obtain ⟨assert, -, h⟩ := bind_eq_ok.mp h
  obtain ⟨value, -, h⟩ := bind_eq_ok.mp h
  split at h <;> cases h
  rfl

/-- A change of the watchdog's properties tells whether it is enabled. -/
theorem Watchdog.eq_enabled_of_ofSignal? {signal : Signal} {w : WatchdogEvent}
    (hm : signal.member = propertiesChangedMember) (h : ofSignal? signal = .ok (some w)) :
    ∃ value, w = .enabled signal.sender signal.path value := by
  rw [ofSignal?, if_pos hm] at h
  obtain ⟨changed, -, h⟩ := bind_eq_ok.mp h
  split at h
  · cases h
  · obtain ⟨value, -, h⟩ := bind_eq_ok.mp h
    cases h
    exact ⟨value, rfl⟩

/-- Another signal of the watchdog tells that its time is over. -/
theorem Watchdog.eq_timeout_of_ofSignal? {signal : Signal} {w : WatchdogEvent}
    (hm : signal.member ≠ propertiesChangedMember) (h : ofSignal? signal = .ok (some w)) :
    ∃ action, w = .timeout signal.sender signal.path action := by
  rw [ofSignal?, if_neg hm] at h
  obtain ⟨action, -, h⟩ := bind_eq_ok.mp h
  cases h
  exact ⟨_, rfl⟩

/-- An error is named by the last part of the interface in its signal. -/
theorem HostError.eq_of_ofSignal? {signal : Signal} {e : HostError}
    (h : ofSignal? signal = .ok (some e)) :
    ∃ interface assert, signal.arg 0 = .ok (.str interface) ∧
      e = ⟨signal.path, enumLeaf interface, assert⟩ := by
  obtain ⟨interface, hinterface, h⟩ := bind_eq_ok.mp h
  obtain ⟨changed, -, h⟩ := bind_eq_ok.mp h
  obtain ⟨first, hfirst, hstring⟩ := bind_eq_ok.mp (Signal.reading_eq_ok.mp hinterface)
  split at h
  · cases h
  · obtain ⟨assert, -, h⟩ := bind_eq_ok.mp h
    cases h
    refine ⟨interface, assert, ?_, rfl⟩
    cases first <;> cases hstring
    exact hfirst

/-! ## Events that are observed -/

/-- The record of a crossing has the threshold, the reading and the limit as its data. -/
theorem Crossing.record_yields (peers : Peers) (c : Crossing) :
    Yields (fun made => ∃ reading threshold,
      made.IsRaised c.path c.assert [c.kind.offset ||| readingBits, reading, threshold])
      (record peers c) := by
  have htail (reading : UInt8) (threshold : Float) (low high : Float) : Yields
      (fun made => ∃ reading threshold,
        made.IsRaised c.path c.assert [c.kind.offset ||| readingBits, reading, threshold])
      (do
        let made ← made (Record.system? (c.message threshold) c.path
          [c.kind.offset ||| readingBits, reading, rawByte threshold low high] c.assert
          controllerGenerator)
        return (made.withMetadata "REDFISH_MESSAGE_ID" c.redfishId).withMetadata
          "REDFISH_MESSAGE_ARGS"
          (c.sensor ++ "," ++ Decimal.fixed places c.value ++ ","
            ++ Decimal.fixed places threshold)) :=
    (yields_made _).bind fun made hmade => .pure
      ⟨_, _, ((Record.isRaised_of_system? hmade).withMetadata _ _).withMetadata _ _⟩
  refine (yields_properties _ _ _ _).bind fun sensor _ => (yields_typed _).bind fun high _ =>
    (yields_typed _).bind fun low _ => (yields_property _ _ _ _ _).bind fun value _ =>
    (yields_typed _).bind fun stored _ => ?_
  dsimp only
  split
  · rw [map_eq_pure_bind, bind_assoc]
    refine (yields_typed _).bind fun scale _ => ?_
    rw [pure_bind]
    exact htail _ _ _ _
  · rw [pure_bind]
    exact htail _ _ _ _

/-- An observed crossing raises its record, under its threshold if crossings are tracked. -/
theorem Crossing.observe_raises (peers : Peers) (tracked : Bool) (c : Crossing) :
    Yields (fun o => ∃ reading threshold, o.IsRaised c.path c.assert
      [c.kind.offset ||| readingBits, reading, threshold]
      (if tracked then some c.kind.property else none)) (c.observe peers tracked) := by
  refine (record_yields peers c).bind fun made ⟨reading, threshold, hraised⟩ => .pure
    ⟨reading, threshold, made, rfl, hraised, ?_⟩
  cases tracked <;> rfl

/-- A crossing that is tracked changes the condition of its threshold. -/
theorem Crossing.observe_yields (peers : Peers) (tracked : Bool) (c : Crossing) :
    Yields (fun o => ∃ reading threshold, o.Tells c.path c.assert
      [c.kind.offset ||| readingBits, reading, threshold]
      (if tracked then some c.kind.property else none)) (c.observe peers tracked) :=
  (c.observe_raises peers tracked).imp fun _ ⟨reading, threshold, hraised⟩ =>
    ⟨reading, threshold, hraised.tells⟩

/-- A record of the watchdog has three bytes of data. -/
theorem Watchdog.length_of_describe {settings : Properties} {action : Option String}
    {assert : Bool} {data : List UInt8} {message : String}
    (h : describe settings action assert = .ok (data, message)) : data.length = 3 := by
  unfold describe at h
  cases action
  all_goals
    obtain ⟨_, -, h⟩ := bind_eq_ok.mp h
    obtain ⟨_, -, h⟩ := bind_eq_ok.mp h
    obtain ⟨_, -, h⟩ := bind_eq_ok.mp h
    dsimp only at h
    split at h
    all_goals
      obtain ⟨_, -, h⟩ := bind_eq_ok.mp h
      cases h
      rfl

/-- The record of the watchdog is raised at its path. -/
theorem Watchdog.record_yields (peers : Peers) (sender path : String) (action : Option String)
    (assert : Bool) :
    Yields (fun made => ∃ data, data.length = 3 ∧ made.IsRaised path assert data)
      (record peers sender path action assert) :=
  (yields_properties _ _ _ _).bind fun _ _ => (yields_typed _).bind fun (_, _) hdata =>
    (yields_made _).bind fun _ hmade => .pure ⟨_, length_of_describe hdata,
      ((Record.isRaised_of_system? hmade).withMetadata _ _).withMetadata _ _⟩

/-- What is observed of the watchdog is raised at its path; only its state is a condition. -/
theorem Watchdog.observe_raises (peers : Peers) (source : EnabledSource) (event : WatchdogEvent) :
    Yields (fun o => match event with
      | .timeout _ path _ => ∃ data, data.length = 3 ∧ o.IsRaised path true data none
      | .enabled _ path _ => ∃ assert data, data.length = 3 ∧
          o.IsRaised path assert data (some enabledProperty))
      (observe peers source event) := by
  cases event with
  | timeout sender path action =>
    exact (record_yields peers sender path _ true).bind fun made ⟨data, hlength, hraised⟩ => .pure
      ⟨data, hlength, made, rfl, hraised, rfl⟩
  | enabled sender path value =>
    have hrecord (value : Bool) : Yields
        (fun o => ∃ assert data, data.length = 3 ∧
          Observation.IsRaised path assert data (some enabledProperty) o)
        (do
          let made ← record peers sender path none value
          return ⟨.record made, some ⟨⟨path, enabledProperty⟩, value⟩⟩) :=
      (record_yields peers sender path none value).bind fun made ⟨data, hlength, hraised⟩ => .pure
        ⟨value, data, hlength, made, rfl, hraised, rfl⟩
    cases source with
    | signal => exact hrecord value
    | property =>
      have hvalue : Yields (fun _ => True) (QueryM.property peers sender path stateInterface
          enabledProperty >>= fun current => QueryM.typed current.asBool) :=
        (yields_property _ _ _ _ _).bind fun _ _ => (yields_typed _).imp fun _ _ => trivial
      exact hvalue.bind fun current _ => hrecord current

/-- A watchdog that runs out changes no condition; one that is enabled or
disabled changes that of its path. -/
theorem Watchdog.observe_yields (peers : Peers) (source : EnabledSource) (event : WatchdogEvent) :
    Yields (fun o => match event with
      | .timeout _ path _ => ∃ data, o.Tells path true data none
      | .enabled _ path _ => ∃ assert data, o.Tells path assert data (some enabledProperty))
      (observe peers source event) := by
  refine (observe_raises peers source event).imp fun o h => ?_
  cases event with
  | timeout =>
    obtain ⟨data, -, hraised⟩ := h
    exact ⟨data, hraised.tells⟩
  | enabled =>
    obtain ⟨assert, data, -, hraised⟩ := h
    exact ⟨assert, data, hraised.tells⟩

/-- An observed error is raised at its path, under its name. -/
theorem HostError.observe_raises (e : HostError) :
    Yields (fun o => o.IsRaised e.path e.assert
      [if e.error = "ThermalTrip" then 1 else 0, unspecifiedByte, unspecifiedByte] (some e.error))
      e.observe :=
  (yields_made _).bind fun made hmade => .pure
    ⟨made, rfl, Record.isRaised_of_system? hmade, rfl⟩

theorem HostError.observe_yields (e : HostError) :
    Yields (fun o => o.Tells e.path e.assert
      [if e.error = "ThermalTrip" then 1 else 0, unspecifiedByte, unspecifiedByte] (some e.error))
      e.observe :=
  e.observe_raises.imp fun _ hraised => hraised.tells

end EventLog
