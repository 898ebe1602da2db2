import EventLog.Proofs.Line
import EventLog.Proofs.Monitor.Episodes
import EventLog.Proofs.Store.Lines

/-!
# EventLog.Proofs.Monitor.Raised

What the monitors report, by the signal that it is reported of.

* `Notice.Raises`: a record is raised by the controller against a source, with
  three bytes of data;
* `Monitor.raises_of_verdict_eq_accepted`: what a monitor accepts is such a
  record, or none at all, and the source is the signal's path;
* `Monitors.raises_of_mem_notices`: so is all that is reported of a signal.
-/

namespace EventLog

open Step QueryM

/-! ## Notices of a source -/

/-- A notice is no record, or one that the controller raises against a source. -/
def Notice.Raises (source : String) : Notice → Prop
  | record made => ∃ assert data, data.length = 3 ∧ made.IsRaised source assert data
  | informational .. => True

namespace Record.IsRaised

variable {source : String} {assert : Bool} {data : List UInt8} {record : Record}

/-- The path of a record that is raised can be stored. -/
theorem hasSensorPath (h : record.IsRaised source assert data) : record.HasSensorPath := by
  rw [Record.HasSensorPath, h.tells.source_eq]
  exact fun _ hpath => Option.mem_some.mp hpath ▸ h.isSensorPath

/-- The store has nothing against a record that was raised. -/
theorem checkRecord (h : record.IsRaised source assert data) :
    Store.checkRecord record = .ok () := checkRecord_eq_ok.mpr h.hasSensorPath

/-- What a record that was raised is read back as. -/
theorem entry_eq (h : record.IsRaised source assert data) (time : Timestamp) (id : RecordId) :
    record.entry time id =
      ⟨time, id, systemRecordType, data, some controllerGenerator,
        if source = "" then none else some source, some assert⟩ := by
  rw [Record.entry, h.origin_eq, h.recordType_eq, h.data_eq]

end Record.IsRaised

/-! ## Events -/

/-- The notice of an observation raises what was observed. -/
theorem Observation.IsRaised.raises {source : String} {assert : Bool} {data : List UInt8}
    {kind? : Option String} {o : Observation} (h : o.IsRaised source assert data kind?)
    (hlength : data.length = 3) : o.notice.Raises source := by
  obtain ⟨record, hnotice, hraised, -⟩ := h
  rw [hnotice]
  exact ⟨assert, data, hlength, hraised⟩

/-- The crossing of an alarm is at the path of its signal. -/
theorem Crossing.path_of_ofAlarm? {signal : Signal} {c : Crossing}
    (h : ofAlarm? signal = .ok (some c)) : c.path = signal.path := by
  rw [ofAlarm?] at h
  split at h
  · cases h
  · obtain ⟨value, -, h⟩ := bind_eq_ok.mp h
    cases h
    rfl

/-! ## Monitors -/

/-- What a monitor accepts is raised against the path of the signal. -/
theorem Monitor.raises_of_verdict_eq_accepted {m : Monitor} {source : EnabledSource}
    {peers : Peers} {signal : Signal} {assertions : Assertions} {o : Observation}
    (h : m.verdict source peers signal assertions = .accepted o) :
    o.notice.Raises signal.path := by
  obtain ⟨event, hdecode, hobserve, -⟩ := of_verdict_eq_accepted h
  cases m with
  | threshold =>
    obtain ⟨c, hread, hevent⟩ := bind_eq_ok.mp hdecode
    cases hevent
    rw [← Crossing.path_of_ofSignal? hread]
    obtain ⟨reading, threshold, hraised⟩ :=
      observation_of_yields (c.observe_raises peers true) hobserve
    exact hraised.raises rfl
  | thresholdAlarm =>
    obtain ⟨read, hread, hevent⟩ := bind_eq_ok.mp hdecode
    obtain ⟨c, rfl, rfl⟩ := Option.map_eq_some_iff.mp (Except.ok.inj hevent)
    rw [← Crossing.path_of_ofAlarm? hread]
    obtain ⟨reading, threshold, hraised⟩ :=
      observation_of_yields (c.observe_raises peers false) hobserve
    exact hraised.raises rfl
  | watchdog =>
    obtain ⟨read, hread, hevent⟩ := bind_eq_ok.mp hdecode
    obtain ⟨w, rfl, rfl⟩ := Option.map_eq_some_iff.mp (Except.ok.inj hevent)
    have hraises := observation_of_yields (Watchdog.observe_raises peers source w) hobserve
    by_cases hmember : signal.member = propertiesChangedMember
    · obtain ⟨value, rfl⟩ := Watchdog.eq_enabled_of_ofSignal? hmember hread
      obtain ⟨assert, data, hlength, hraised⟩ := hraises
      exact hraised.raises hlength
    · obtain ⟨action, rfl⟩ := Watchdog.eq_timeout_of_ofSignal? hmember hread
      obtain ⟨data, hlength, hraised⟩ := hraises
      exact hraised.raises hlength
  | hostError =>
    obtain ⟨read, hread, hevent⟩ := bind_eq_ok.mp hdecode
    obtain ⟨e, rfl, rfl⟩ := Option.map_eq_some_iff.mp (Except.ok.inj hevent)
    obtain ⟨interface, assert, -, rfl⟩ := HostError.eq_of_ofSignal? hread
    exact (observation_of_yields (HostError.observe_raises _) hobserve).raises rfl
  | power =>
    obtain ⟨e, rfl⟩ := eq_of_power h
    trivial

/-- **All that is reported of a signal is raised against its path.** -/
theorem Monitors.raises_of_mem_notices {m : Monitors} {peers : Peers} {signal : Signal}
    {notice : Notice} (h : notice ∈ (m.dispatch peers signal).notices) :
    notice.Raises signal.path := by
  rcases (m.verdict ⟨signal, peers⟩).accepted_or_refused with ⟨o, hverdict⟩ | ⟨hrefused, -⟩
  · obtain ⟨handler, -, haccepted, hnotices, -⟩ := react_of_accepted hverdict
    rw [react] at hnotices
    rw [hnotices, Option.mem_toList] at h
    rw [Monitor.eq_of_mem_finish h]
    exact Monitor.raises_of_verdict_eq_accepted haccepted
  · have hnotices := (react_of_not_accepted hrefused).1
    rw [react] at hnotices
    rw [hnotices] at h
    exact absurd h List.not_mem_nil

end EventLog
