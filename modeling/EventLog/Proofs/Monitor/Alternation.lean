import EventLog.Proofs.Monitor.Episodes
import Mathlib.Data.List.Basic
import Mathlib.Data.List.Induction

/-!
# EventLog.Proofs.Monitor.Alternation

What the records of a run say of the conditions that stand.

* `reported_of_react`: of the changes that were accepted, those of thresholds and
  of the host's errors are reported, and nothing else is;
* `reached`: the accepted changes of a run lead to what stands behind it;
* `records_alternate`: so the records of a condition come and go by turns.
-/

namespace EventLog

/-! ## Reports -/

/-- The kinds of the conditions whose changes are all reported. -/
def reportedKinds : List String := ThresholdKind.all.map (·.property) ++ HostError.errors

/-- The kind of the condition that the record of a signal is about: the threshold
that its data names, or the host's error whose interface changed. -/
def Record.reportedKind? (signal : Signal) (record : Record) : Option String :=
  if signal.member = Crossing.member then
    (ThresholdKind.all.find? fun kind =>
      record.data.head? = some (kind.offset ||| Crossing.readingBits)).map (·.property)
  else if signal.member = propertiesChangedMember then
    HostError.errors.find? fun e => HostError.interface e = signal.nameSpace
  else none

/-- The change that the record of a signal reports. -/
def Record.reported? (signal : Signal) (record : Record) : Option Change := do
  return ⟨⟨← record.sensorPath?, ← record.reportedKind? signal⟩, ← record.assert?⟩

/-- The change that the notice of a signal reports. -/
def Notice.reported? (signal : Signal) : Notice → Option Change
  | .record made => made.reported? signal
  | .informational .. => none

/-- The change that a record reports is that of its source and direction, under the kind
it tells. -/
theorem Record.Tells.reported?_eq {source : String} {assert : Bool} {data : List UInt8}
    {record : Record} (h : record.Tells source assert data) (signal : Signal) :
    record.reported? signal =
      (record.reportedKind? signal).map fun kind => ⟨⟨source, kind⟩, assert⟩ := by
  rw [Record.reported?, h.source_eq, h.assert_eq]
  cases record.reportedKind? signal <;> rfl

/-- The record of a threshold tells the threshold by its data. -/
theorem Record.reportedKind?_of_threshold {signal : Signal} {record : Record}
    (hm : signal.member = Crossing.member) {kind : ThresholdKind} {rest : List UInt8}
    (hdata : record.data = (kind.offset ||| Crossing.readingBits) :: rest) :
    record.reportedKind? signal = some kind.property := by
  rw [reportedKind?, if_pos hm, hdata]
  cases kind <;> rfl

/-- The record of a processor's error tells the error by the signal's namespace. -/
theorem Record.reportedKind?_of_hostError {signal : Signal} {record : Record}
    (hm : signal.member = propertiesChangedMember) {e : String} (he : e ∈ HostError.errors)
    (hspace : HostError.interface e = signal.nameSpace) :
    record.reportedKind? signal = some e := by
  rw [reportedKind?, if_neg (by rw [hm]; decide), if_pos hm, ← hspace]
  have hall : ∀ e ∈ HostError.errors,
      (HostError.errors.find? fun f => HostError.interface f = HostError.interface e) = some e := by
    decide
  exact hall e he

/-- The signals of alarms and of watchdogs are not among those that report. -/
theorem Record.reportedKind?_eq_none {signal : Signal} {m : Monitor}
    (h : Monitor.route? signal.member signal.nameSpace = some m)
    (hm : m = .thresholdAlarm ∨ m = .watchdog) (record : Record) :
    record.reportedKind? signal = none := by
  have hsignal := Monitor.of_route? h
  rcases hm with rfl | rfl
  · obtain ⟨alarm, halarm, hmember⟩ := hsignal
    have hall : ∀ alarm ∈ Crossing.alarms, Crossing.alarmMember alarm.1 alarm.2 ≠ Crossing.member ∧
        Crossing.alarmMember alarm.1 alarm.2 ≠ propertiesChangedMember := by decide
    rw [reportedKind?, ← hmember, if_neg (hall alarm halarm).1, if_neg (hall alarm halarm).2]
  · rcases hsignal with ⟨hmember, hspace⟩ | ⟨hmember, -⟩
    · rw [reportedKind?, hmember, hspace, if_neg (by decide), if_pos rfl]
      decide
    · rw [reportedKind?, hmember, if_neg (by decide), if_neg (by decide)]

/-- The namespace of a change of properties is the interface in its first argument. -/
theorem Signal.nameSpace_of_arg {signal : Signal} {interface : String}
    (hm : signal.member = propertiesChangedMember) (h : signal.arg 0 = .ok (.str interface)) :
    signal.nameSpace = interface := by
  rw [nameSpace, if_pos hm]
  rw [arg] at h
  cases hargs : signal.args with
  | nil => simp [hargs] at h
  | cons first rest =>
    simp only [hargs, List.getElem?_cons_zero, Except.ok.injEq] at h
    rw [h]

/-! ## What is reported of each event -/

namespace Observation

/-- The notice of an observation reports the change that it makes. -/
def IsReported (signal : Signal) (o : Observation) : Prop :=
  ∃ change, o.change = some change ∧ change.condition.kind ∈ reportedKinds ∧
    o.notice.reported? signal = some change

/-- The notice of an observation reports nothing, and the change that it makes, if
it makes one, is of another kind. -/
def IsUnreported (signal : Signal) (o : Observation) : Prop :=
  o.notice.reported? signal = none ∧ ∀ change ∈ o.change, change.condition.kind ∉ reportedKinds

variable {signal : Signal} {o : Observation} {source : String} {assert : Bool} {data : List UInt8}

/-- An observation of a kind that its record tells is reported. -/
theorem Tells.isReported {kind : String} (h : o.Tells source assert data (some kind))
    (hmem : kind ∈ reportedKinds)
    (hkind : ∀ made : Record, made.data = data → made.reportedKind? signal = some kind) :
    o.IsReported signal := by
  obtain ⟨made, hnotice, htells, hchange⟩ := h
  refine ⟨_, hchange, hmem, ?_⟩
  rw [hnotice, Notice.reported?, htells.reported?_eq, hkind made htells.data_eq]
  rfl

/-- An observation of a kind that no record tells is not reported. -/
theorem Tells.isUnreported {kind? : Option String} (h : o.Tells source assert data kind?)
    (hmem : ∀ kind ∈ kind?, kind ∉ reportedKinds)
    (hkind : ∀ made : Record, made.reportedKind? signal = none) : o.IsUnreported signal := by
  obtain ⟨made, hnotice, htells, hchange⟩ := h
  refine ⟨?_, fun change hmade => ?_⟩
  · rw [hnotice, Notice.reported?, htells.reported?_eq, hkind made, Option.map_none]
  · rw [hchange] at hmade
    obtain ⟨kind, hsome, rfl⟩ := Option.map_eq_some_iff.mp hmade
    exact hmem kind hsome

end Observation

namespace Monitor

variable {source : EnabledSource} {peers : Peers} {signal : Signal} {assertions : Assertions}
  {o : Observation}

/-- What is accepted of a threshold is reported. -/
theorem isReported_of_threshold (hm : signal.member = Crossing.member)
    (h : threshold.verdict source peers signal assertions = .accepted o) :
    o.IsReported signal := by
  obtain ⟨kind, assert, reading, value, htells⟩ := tells_of_threshold h
  have hmem : kind.property ∈ reportedKinds := by cases kind <;> decide
  exact htells.isReported hmem fun made hdata => made.reportedKind?_of_threshold hm hdata

/-- What is accepted of a processor's error is reported. -/
theorem isReported_of_hostError (hm : signal.member = propertiesChangedMember) {e : String}
    (he : e ∈ HostError.errors) (hspace : HostError.interface e = signal.nameSpace)
    (h : hostError.verdict source peers signal assertions = .accepted o) :
    o.IsReported signal := by
  obtain ⟨interface, assert, data, harg, htells⟩ := tells_of_hostError h
  have hleaf : ∀ e ∈ HostError.errors,
      enumLeaf (HostError.interface e) = e ∧ e ∈ reportedKinds := by decide
  rw [← Signal.nameSpace_of_arg hm harg, ← hspace, (hleaf e he).1] at htells
  exact htells.isReported (hleaf e he).2 fun made _ =>
    made.reportedKind?_of_hostError hm he hspace

/-- What is accepted of an alarm is not reported. -/
theorem isUnreported_of_thresholdAlarm
    (hroute : route? signal.member signal.nameSpace = some .thresholdAlarm)
    (h : thresholdAlarm.verdict source peers signal assertions = .accepted o) :
    o.IsUnreported signal := by
  obtain ⟨path, assert, data, htells⟩ := tells_of_thresholdAlarm h
  exact htells.isUnreported (fun _ hnone => by cases hnone)
    (Record.reportedKind?_eq_none hroute (.inl rfl))

/-- What is accepted of the watchdog is not reported. -/
theorem isUnreported_of_watchdog
    (hroute : route? signal.member signal.nameSpace = some .watchdog)
    (h : watchdog.verdict source peers signal assertions = .accepted o) :
    o.IsUnreported signal := by
  have hkind := Record.reportedKind?_eq_none hroute (.inr rfl)
  have htells := tells_of_watchdog h
  split at htells
  · obtain ⟨assert, data, htells⟩ := htells
    exact htells.isUnreported (fun _ hsome => by cases hsome; decide) hkind
  · obtain ⟨data, htells⟩ := htells
    exact htells.isUnreported (fun _ hnone => by cases hnone) hkind

/-- What is accepted of the host's power is not reported. -/
theorem isUnreported_of_power
    (h : power.verdict source peers signal assertions = .accepted o) :
    o.IsUnreported signal := by
  obtain ⟨e, rfl⟩ := eq_of_power h
  cases e <;> exact ⟨rfl, fun _ hnone => by cases hnone⟩

end Monitor

/-! ## What is reported of a run -/

namespace Monitors

/-- The changes that the notices of a run report. -/
def reports (m : Monitors) (arrivals : List Arrival) : List Change :=
  (m.episodes arrivals).flatMap fun e =>
    e.outcome.notices.filterMap (·.reported? e.arrival.signal)

/-- The changes of a run that were accepted. -/
def changes (m : Monitors) (arrivals : List Arrival) : List Change :=
  (m.episodes arrivals).flatMap fun e => (verdictIn e).change?.toList

/-- A notice of an arrival that is accepted reports its change, if that is of a kind that
is reported. -/
theorem reported_or_unreported {m : Monitors} {arrival : Arrival} {o : Observation}
    (h : m.verdict arrival = .accepted o) :
    (m.react arrival).notices = [o.notice] ∧ o.IsReported arrival.signal ∨
      (∀ notice ∈ (m.react arrival).notices, notice = o.notice) ∧
        o.IsUnreported arrival.signal ∧
        ∀ handler : Monitor, handler.accepts arrival.signal.name = true →
          handler ≠ .threshold ∧ handler ≠ .hostError := by
  obtain ⟨handler, hh, hv, hnotices, -⟩ := react_of_accepted h
  have hroute := route?_of_handler? hh
  have hsignal := Monitor.of_route? hroute
  have hfinish : ∀ notice ∈ (m.react arrival).notices, notice = o.notice := fun notice hmem =>
    Monitor.eq_of_mem_finish (Option.mem_toList.mp (hnotices ▸ hmem))
  have honly (hne : handler ≠ .threshold ∧ handler ≠ .hostError) (other : Monitor)
      (hother : other.accepts arrival.signal.name = true) :
      other ≠ .threshold ∧ other ≠ .hostError :=
    Monitor.eq_of_accepts hother (accepts_of_handler? hh) ▸ hne
  cases handler with
  | threshold => exact .inl ⟨hnotices, Monitor.isReported_of_threshold hsignal hv⟩
  | hostError =>
    obtain ⟨hmember, e, he, hspace⟩ := hsignal
    exact .inl ⟨hnotices, Monitor.isReported_of_hostError hmember he hspace hv⟩
  | thresholdAlarm =>
    exact .inr ⟨hfinish, Monitor.isUnreported_of_thresholdAlarm hroute hv, honly (by decide)⟩
  | watchdog =>
    exact .inr ⟨hfinish, Monitor.isUnreported_of_watchdog hroute hv, honly (by decide)⟩
  | power => exact .inr ⟨hfinish, Monitor.isUnreported_of_power hv, honly (by decide)⟩

/-- **Of the accepted changes, those of thresholds and of the host's errors are
reported**, and nothing else is. -/
theorem reported_of_react (m : Monitors) (arrival : Arrival) :
    (m.react arrival).notices.filterMap (·.reported? arrival.signal) =
      (m.verdict arrival).change?.toList.filter (·.condition.kind ∈ reportedKinds) := by
  rcases (m.verdict arrival).accepted_or_refused with ⟨o, hverdict⟩ | ⟨hrefused, hnone⟩
  · have hchange? : (m.verdict arrival).change? = o.change := by rw [hverdict]; rfl
    rw [hchange?]
    rcases reported_or_unreported hverdict with
      ⟨hnotices, change, hchange, hmem, hreported⟩ | ⟨hnotices, ⟨hreported, hkinds⟩, -⟩
    · simp [hnotices, hchange, hmem, hreported]
    · rw [List.filterMap_eq_nil_iff.mpr fun notice hn => hnotices notice hn ▸ hreported,
        List.filter_eq_nil_iff.mpr fun change hc => ?_]
      simpa using hkinds change (Option.mem_toList.mp hc)
  · rw [(react_of_not_accepted hrefused).1, hnone]
    rfl

/-- Every notice of a threshold that was crossed, and of a host's error, reports a change. -/
theorem isSome_reported? {m : Monitors} {arrival : Arrival} {handler : Monitor}
    (h : handler.accepts arrival.signal.name = true)
    (hh : handler = .threshold ∨ handler = .hostError) {notice : Notice}
    (hmem : notice ∈ (m.react arrival).notices) :
    (notice.reported? arrival.signal).isSome = true := by
  rcases (m.verdict arrival).accepted_or_refused with ⟨o, hverdict⟩ | ⟨hrefused, -⟩
  · rcases reported_or_unreported hverdict with
      ⟨hnotices, change, -, -, hreported⟩ | ⟨-, -, hother⟩
    · rw [hnotices] at hmem
      rw [List.mem_singleton.mp hmem, hreported, Option.isSome_some]
    · exact (hh.elim (hother handler h).1 (hother handler h).2).elim
  · rw [(react_of_not_accepted hrefused).1] at hmem
    exact absurd hmem List.not_mem_nil

/-- An arrival makes the change that is accepted, if one is, and no other. -/
theorem assertions_of_react (m : Monitors) (arrival : Arrival) :
    (m.react arrival).monitors.state.assertions =
        (Monitor.track (m.verdict arrival).change? m.state.assertions).2 ∧
      ∀ change ∈ (m.verdict arrival).change?,
        m.state.assertions.wouldApply change.condition change.assert = true := by
  rcases (m.verdict arrival).accepted_or_refused with ⟨o, hverdict⟩ | ⟨hrefused, hnone⟩
  · obtain ⟨handler, -, hv, -, hassertions⟩ := react_of_accepted hverdict
    obtain ⟨_, -, -, hwould⟩ := Monitor.of_verdict_eq_accepted hv
    rw [hverdict]
    exact ⟨hassertions, hwould⟩
  · rw [(react_of_not_accepted hrefused).2.1, hnone]
    exact ⟨rfl, fun _ h => by cases h⟩

theorem after_concat (m : Monitors) (arrivals : List Arrival) (arrival : Arrival) :
    m.after (arrivals ++ [arrival]) = ((m.after arrivals).react arrival).monitors :=
  stateAfter_concat ..

/-- One arrival more brings its change, if one was accepted. -/
theorem changes_concat (m : Monitors) (arrivals : List Arrival) (arrival : Arrival) :
    m.changes (arrivals ++ [arrival]) =
      m.changes arrivals ++ ((m.after arrivals).verdict arrival).change?.toList := by
  rw [changes, episodes, episodesOf_concat, List.flatMap_append, List.flatMap_singleton]
  rfl

/-- The reports of a run are its accepted changes of the kinds that are reported. -/
theorem reports_eq (m : Monitors) (arrivals : List Arrival) :
    m.reports arrivals = (m.changes arrivals).filter (·.condition.kind ∈ reportedKinds) := by
  rw [reports, changes, List.filter_flatMap]
  refine List.flatMap_congr fun e he => ?_
  rw [outcome_eq_of_mem he]
  exact reported_of_react e.before e.arrival

/-- **The accepted changes of a run lead to what stands behind it.** -/
theorem reached (config : MonitorConfig) (arrivals : List Arrival) :
    Assertions.Reached ((fresh config).changes arrivals)
      ((fresh config).after arrivals).state.assertions := by
  induction arrivals using List.reverseRecOn with
  | nil => exact .nil
  | append_singleton arrivals arrival ih =>
    -- The last arrival makes one more change, or none.
    obtain ⟨hassertions, hwould⟩ := assertions_of_react ((fresh config).after arrivals) arrival
    rw [after_concat, hassertions, changes_concat]
    cases hchange : (((fresh config).after arrivals).verdict arrival).change? with
    | none =>
      rw [Option.toList_none, List.append_nil]
      exact ih
    | some change => exact ih.concat change (hwould change hchange)

/-- Alarms, the host's power and a watchdog that runs out change no condition. -/
theorem assertions_of_untracked {m : Monitors} {arrival : Arrival} {handler : Monitor}
    (h : handler.accepts arrival.signal.name = true)
    (huntracked : handler = .thresholdAlarm ∨ handler = .power ∨
      handler = .watchdog ∧ arrival.signal.member ≠ propertiesChangedMember) :
    (m.react arrival).monitors.state.assertions = m.state.assertions := by
  rw [(assertions_of_react m arrival).1]
  suffices hnone : (m.verdict arrival).change? = none by rw [hnone]; rfl
  rcases (m.verdict arrival).accepted_or_refused with ⟨o, hverdict⟩ | ⟨-, hnone⟩
  · obtain ⟨looking, hh, hv, -⟩ := react_of_accepted hverdict
    obtain rfl := Monitor.eq_of_accepts h (accepts_of_handler? hh)
    rw [hverdict]
    change o.change = none
    rcases huntracked with rfl | rfl | ⟨rfl, hmember⟩
    · obtain ⟨_, _, _, _, -, -, hchange⟩ := Monitor.tells_of_thresholdAlarm hv
      exact hchange
    · obtain ⟨e, rfl⟩ := Monitor.eq_of_power hv
      rfl
    · have htells := Monitor.tells_of_watchdog hv
      rw [if_neg hmember] at htells
      obtain ⟨_, _, -, -, hchange⟩ := htells
      exact hchange
  · exact hnone

end Monitors

/-- **Records of something that comes and goes come by turns.**  In every run of
newly built monitors, whatever the peers answer, the records of a threshold that
was crossed, or of a host's error, say by turns that it came and that it went; the
first says that it came, and it stands exactly if the last one did.  Alarms, the
host's power and a watchdog that runs out change nothing that stands, and what
stands is as much as came less as went, the states of watchdogs included. -/
theorem records_alternate (config : MonitorConfig) (arrivals : List Arrival) :
    let m := Monitors.fresh config
    let standing := (m.after arrivals).state.assertions
    (∀ condition : Condition, condition.kind ∈ reportedKinds →
      Alternates (directionsOf condition (m.reports arrivals)) ∧
        (condition ∈ standing ↔
          (directionsOf condition (m.reports arrivals)).getLast? = some true)) ∧
      (∀ arrival : Arrival,
        Monitor.threshold.accepts arrival.signal.name = true ∨
          Monitor.hostError.accepts arrival.signal.name = true →
        ∀ notice ∈ ((m.after arrivals).react arrival).notices,
          (notice.reported? arrival.signal).isSome = true) ∧
      (∀ arrival : Arrival,
        Monitor.thresholdAlarm.accepts arrival.signal.name = true ∨
          Monitor.power.accepts arrival.signal.name = true ∨
          Monitor.watchdog.accepts arrival.signal.name = true ∧ arrival.signal.member = "Timeout" →
        ((m.after arrivals).react arrival).monitors.state.assertions = standing) ∧
      (standing.size : Int)
        = (m.changes arrivals).countP (·.assert) - (m.changes arrivals).countP (!·.assert) := by
  have hreached := Monitors.reached config arrivals
  refine ⟨fun condition hkind => ?_, fun arrival hreports notice hmem => ?_,
    fun arrival huntracked => ?_, ?_⟩
  · rw [Monitors.reports_eq, directionsOf_filter fun _ hc => by rw [hc]; simpa using hkind]
    exact hreached.alternates condition
  · rcases hreports with h | h
    · exact Monitors.isSome_reported? h (.inl rfl) hmem
    · exact Monitors.isSome_reported? h (.inr rfl) hmem
  · rcases huntracked with h | h | ⟨h, hmember⟩
    · exact Monitors.assertions_of_untracked h (.inl rfl)
    · exact Monitors.assertions_of_untracked h (.inr (.inl rfl))
    · exact Monitors.assertions_of_untracked h (.inr (.inr ⟨rfl, by rw [hmember]; decide⟩))
  · have hsize := hreached.size_add
    omega

/-- A host's error that comes, comes again, goes and comes is reported three times, and
stands also behind a watchdog that runs out. -/
theorem records_alternate_for_processor :
    let arrival (asserted : Bool) : Arrival :=
      ⟨.propertiesChanged ":1.7" "/cpu0" (HostError.interface "IERR")
        [("Asserted", .bool asserted)], .unavailable "down"⟩
    let timeout : Arrival :=
      ⟨⟨":1.7", "/watchdog0", Watchdog.timeoutInterface, "Timeout", [.str "HardReset"]⟩,
        { Peers.unavailable "down" with properties := fun _ _ _ => .ok [] }⟩
    let m := Monitors.fresh .default
    let arrivals := [arrival true, arrival true, arrival false, arrival true]
    let condition : Condition := ⟨"/cpu0", "IERR"⟩
    directionsOf condition (m.reports arrivals) = [true, false, true] ∧
      Alternates (directionsOf condition (m.reports arrivals)) ∧
      condition ∈ ((m.after arrivals).react timeout).monitors.state.assertions ∧
      ∀ notice ∈ ((m.after arrivals).react (arrival false)).notices,
        (notice.reported? (arrival false).signal).isSome = true := by
  intro arrival timeout m arrivals condition
  have hdirections : directionsOf condition (m.reports arrivals) = [true, false, true] := by
    decide +kernel
  have herror : Monitor.hostError.accepts (arrival false).signal.name = true := by decide +kernel
  have htimeout : Monitor.watchdog.accepts timeout.signal.name = true := by decide +kernel
  obtain ⟨halternates, hreports, huntracked, -⟩ := records_alternate .default arrivals
  obtain ⟨hturns, hstands⟩ := halternates condition (by decide)
  refine ⟨hdirections, hturns, ?_, hreports (arrival false) (.inr herror)⟩
  rw [huntracked timeout (.inr (.inr ⟨htimeout, rfl⟩)), hstands]
  exact congrArg List.getLast? hdirections

end EventLog
