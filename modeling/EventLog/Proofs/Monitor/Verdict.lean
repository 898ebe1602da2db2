import EventLog.Proofs.Assertions
import EventLog.Proofs.Monitor.Observation

/-!
# EventLog.Proofs.Monitor.Verdict

What a monitor makes of a signal before the last say: the event fails, the
signal holds none, the event repeats the state of its condition, or it is
accepted.

* `process_eq`: all that a monitor does with a signal, by its verdict;
* `process_of_not_accepted`: an event that is not accepted leaves no trace;
* `mem_track`: one that is accepted changes its condition and no other;
* `tells_of_threshold` and its likes: what each monitor accepts.
-/

namespace EventLog

/-- What a monitor makes of a signal. -/
inductive Verdict where
  | failed (error : MonitorError)
  | irrelevant
  | duplicate (change : Change)
  | accepted (observation : Observation)

namespace Verdict

/-- The observation that was accepted. -/
def observation? : Verdict → Option Observation
  | accepted o => some o
  | _ => none

/-- The change that was accepted. -/
def change? (v : Verdict) : Option Change := v.observation? >>= Observation.change

/-- Whether there is an observation that was accepted. -/
def isAccepted (v : Verdict) : Bool := v.observation?.isSome

/-- A verdict accepts, or it changes nothing. -/
theorem accepted_or_refused (v : Verdict) :
    (∃ o, v = accepted o) ∨ v.isAccepted = false ∧ v.change? = none := by
  cases v with
  | accepted o => exact .inl ⟨o, rfl⟩
  | _ => exact .inr ⟨rfl, rfl⟩

/-- Only what is accepted makes a change. -/
theorem isAccepted_of_change? {v : Verdict} {change : Change} (h : v.change? = some change) :
    v.isAccepted = true := by
  rcases v.accepted_or_refused with ⟨o, rfl⟩ | ⟨-, hnone⟩
  · rfl
  · rw [hnone] at h
    cases h

end Verdict

namespace Monitor

/-- An observation is accepted unless its change would alter nothing. -/
def judge (o : Observation) (assertions : Assertions) : Verdict :=
  match o.change with
  | none => .accepted o
  | some change =>
    if assertions.wouldApply change.condition change.assert then .accepted o else .duplicate change

/-- What a monitor makes of a signal, while some conditions stand. -/
def verdict (m : Monitor) (source : EnabledSource) (peers : Peers) (signal : Signal)
    (assertions : Assertions) : Verdict :=
  match m.decode signal with
  | .error e => .failed e
  | .ok none => .irrelevant
  | .ok (some event) =>
    match ((observe peers source event).run []).1 with
    | .error e => .failed e
    | .ok o => judge o assertions

/-- The questions that a monitor asks before it comes to a verdict. -/
def asked (m : Monitor) (source : EnabledSource) (peers : Peers) (signal : Signal) :
    List BusQuery :=
  match m.decode signal with
  | .ok (some event) => ((observe peers source event).run []).2
  | _ => []

variable {m : Monitor} {source : EnabledSource} {peers : Peers} {signal : Signal}
  {state : MonitorState}

/-- **All that a monitor does with a signal**: the verdict says whether anything
changes and whether there is a last say. -/
theorem process_eq (m : Monitor) (source : EnabledSource) (peers : Peers) (signal : Signal)
    (state : MonitorState) :
    m.process source peers signal state =
      match m.verdict source peers signal state.assertions with
      | .failed e => ⟨.error e, state, m.asked source peers signal⟩
      | .irrelevant => ⟨.ok none, state, m.asked source peers signal⟩
      | .duplicate _ => ⟨.ok none, state, m.asked source peers signal⟩
      | .accepted o =>
        let (notice, noLog, more) := m.finish peers o.notice state.noLog
        ⟨.ok notice, ⟨(track o.change state.assertions).2, noLog⟩,
          m.asked source peers signal ++ more⟩ := by
  rw [process, verdict, asked]
  rcases m.decode signal with e | _ | event
  · rfl
  · rfl
  · rcases hobserve : (observe peers source event).run [] with ⟨e | o, queries⟩
    · simp only [hobserve]
    · simp only [hobserve, judge]
      cases hchange : o.change with
      | none => simp only [track, hchange]
      | some change =>
        -- The verdict looks ahead with `wouldApply`; `track` says the same when it is made.
        have hfst := state.assertions.apply_fst change.condition change.assert
        rcases happly : state.assertions.apply change.condition change.assert with ⟨altered, next⟩
        rw [happly] at hfst
        cases altered <;> simp [track, ← hfst, happly, hchange]

/-- No command is asked before the verdict. -/
theorem asked_asksNoCommand (m : Monitor) (source : EnabledSource) (peers : Peers)
    (signal : Signal) : AsksNoCommand (m.asked source peers signal) := by
  rw [asked]
  split
  · next event _ =>
    cases event with
    | crossing tracked c => exact (c.observe_yields peers tracked [] asksNoCommand_nil).1
    | watchdog w => exact (Watchdog.observe_yields peers source w [] asksNoCommand_nil).1
    | hostError e => exact (e.observe_yields [] asksNoCommand_nil).1
    | power e => exact asksNoCommand_nil
  · exact asksNoCommand_nil

/-- What a monitor makes of an event that it accepts: the notice, the change and its questions. -/
theorem process_of_accepted {o : Observation}
    (h : m.verdict source peers signal state.assertions = .accepted o) :
    m.process source peers signal state =
      ⟨.ok (m.finish peers o.notice state.noLog).1,
        ⟨(track o.change state.assertions).2, (m.finish peers o.notice state.noLog).2.1⟩,
        m.asked source peers signal ++ (m.finish peers o.notice state.noLog).2.2⟩ := by
  rw [process_eq, h]

/-- **An event that is not accepted leaves no trace.** -/
theorem process_of_not_accepted
    (h : (m.verdict source peers signal state.assertions).isAccepted = false) :
    (m.process source peers signal state).result.toOption.join = none ∧
      (m.process source peers signal state).state = state ∧
      AsksNoCommand (m.process source peers signal state).queries := by
  have hasked := asked_asksNoCommand m source peers signal
  rw [process_eq]
  cases hverdict : m.verdict source peers signal state.assertions with
  | failed e => exact ⟨rfl, rfl, hasked⟩
  | irrelevant => exact ⟨rfl, rfl, hasked⟩
  | duplicate change => exact ⟨rfl, rfl, hasked⟩
  | accepted o => rw [hverdict] at h; cases h

/-- The last say on a notice is to leave it as it is, or to drop it. -/
theorem eq_of_mem_finish {notice final : Notice} {noLog : Bool}
    (h : final ∈ (m.finish peers notice noLog).1) : final = notice := by
  unfold finish at h
  split at h
  · next made =>
    generalize (if asserts (.record made) then (Watchdog.noLog peers, [Watchdog.noLogQuery])
      else (noLog, [])) = sampled at h
    dsimp only at h
    split at h
    · cases h
    · exact (Option.mem_some.mp h).symm
  · exact (Option.mem_some.mp h).symm

/-- A change that was accepted was one, and leaves every other condition alone. -/
theorem mem_track {change : Change} {assertions : Assertions} {c : Condition} :
    c ∈ (track (some change) assertions).2 ↔
      if c = change.condition then change.assert = true else c ∈ assertions := Assertions.mem_apply

/-! ## What an accepted observation is -/

/-- An observation is accepted as it is, if its change would alter something. -/
theorem judge_eq_accepted {o accepted : Observation} {assertions : Assertions} :
    judge o assertions = .accepted accepted ↔ o = accepted ∧ ∀ change ∈ o.change,
      assertions.wouldApply change.condition change.assert = true := by
  rw [judge]
  cases o.change with
  | none => simp
  | some change =>
    cases hwould : assertions.wouldApply change.condition change.assert <;> simp [hwould]

/-- An observation is a duplicate if its change alters nothing. -/
theorem judge_eq_duplicate {o : Observation} {change : Change} {assertions : Assertions} :
    judge o assertions = .duplicate change ↔
      o.change = some change ∧ (assertions.apply change.condition change.assert).1 = false := by
  rw [judge, Assertions.apply_fst]
  cases o.change with
  | none => simp
  | some made =>
    cases hwould : assertions.wouldApply made.condition made.assert <;> grind

/-- A verdict on an event that was read and observed is a judgement. -/
theorem verdict_cases (m : Monitor) (source : EnabledSource) (peers : Peers) (signal : Signal)
    (assertions : Assertions) :
    (∃ e, m.verdict source peers signal assertions = .failed e) ∨
      m.verdict source peers signal assertions = .irrelevant ∧ m.decode signal = .ok none ∨
      ∃ event o, m.decode signal = .ok (some event) ∧
        ((observe peers source event).run []).1 = .ok o ∧
        m.verdict source peers signal assertions = judge o assertions := by
  rw [verdict]
  rcases m.decode signal with e | _ | event
  · exact .inl ⟨e, rfl⟩
  · exact .inr (.inl ⟨rfl, rfl⟩)
  · cases hobserve : ((observe peers source event).run []).1 with
    | error e => exact .inl ⟨e, by simp only [hobserve]⟩
    | ok o => exact .inr (.inr ⟨event, o, rfl, hobserve, by simp only [hobserve]⟩)

variable {assertions : Assertions}

/-- An accepted observation is that of an event that was read, and alters something
if it is a change. -/
theorem of_verdict_eq_accepted {o : Observation}
    (h : m.verdict source peers signal assertions = .accepted o) :
    ∃ event, m.decode signal = .ok (some event) ∧
      ((observe peers source event).run []).1 = .ok o ∧
      ∀ change ∈ o.change, assertions.wouldApply change.condition change.assert = true := by
  rcases verdict_cases m source peers signal assertions with
    ⟨e, hv⟩ | ⟨hv, -⟩ | ⟨event, observed, hdecode, hobserve, hv⟩ <;> rw [hv] at h
  · cases h
  · cases h
  · obtain ⟨rfl, hwould⟩ := judge_eq_accepted.mp h
    exact ⟨event, hdecode, hobserve, hwould⟩

/-- An irrelevant event is none for its monitor. -/
theorem decode_of_verdict_eq_irrelevant
    (h : m.verdict source peers signal assertions = .irrelevant) : m.decode signal = .ok none := by
  rcases verdict_cases m source peers signal assertions with
    ⟨e, hv⟩ | ⟨-, hdecode⟩ | ⟨_, o, -, -, hv⟩
  · rw [hv] at h
    cases h
  · exact hdecode
  · rw [hv, judge] at h
    grind

/-- The change of a duplicate alters nothing. -/
theorem apply_of_verdict_eq_duplicate {change : Change}
    (h : m.verdict source peers signal assertions = .duplicate change) :
    (assertions.apply change.condition change.assert).1 = false := by
  rcases verdict_cases m source peers signal assertions with
    ⟨e, hv⟩ | ⟨hv, -⟩ | ⟨_, o, -, -, hv⟩ <;> rw [hv] at h
  · cases h
  · cases h
  · exact (judge_eq_duplicate.mp h).2

/-! ## What each monitor accepts -/

theorem observation_of_yields {P : Observation → Prop} {x : QueryM Observation}
    (hx : QueryM.Yields P x) {o : Observation} (h : (x.run []).1 = .ok o) : P o :=
  (hx [] asksNoCommand_nil).2 o _ (Prod.ext h rfl)

/-- A threshold that was crossed is tracked. -/
theorem tells_of_threshold {o : Observation}
    (h : threshold.verdict source peers signal assertions = .accepted o) :
    ∃ (kind : ThresholdKind) (assert : Bool) (reading value : UInt8), o.Tells signal.path assert
      [kind.offset ||| Crossing.readingBits, reading, value] (some kind.property) := by
  obtain ⟨event, hdecode, hobserve, -⟩ := of_verdict_eq_accepted h
  obtain ⟨c, hread, hevent⟩ := Step.bind_eq_ok.mp hdecode
  cases hevent
  rw [← Crossing.path_of_ofSignal? hread]
  exact ⟨c.kind, c.assert, observation_of_yields (c.observe_yields peers true) hobserve⟩

/-- An alarm is not tracked. -/
theorem tells_of_thresholdAlarm {o : Observation}
    (h : thresholdAlarm.verdict source peers signal assertions = .accepted o) :
    ∃ path assert data, o.Tells path assert data none := by
  obtain ⟨event, hdecode, hobserve, -⟩ := of_verdict_eq_accepted h
  obtain ⟨c, -, hevent⟩ := Step.bind_eq_ok.mp hdecode
  obtain ⟨c, -, rfl⟩ := Option.map_eq_some_iff.mp (Except.ok.inj hevent)
  obtain ⟨_, _, htells⟩ := observation_of_yields (c.observe_yields peers false) hobserve
  exact ⟨_, _, _, htells⟩

/-- A watchdog is tracked when it is enabled or disabled, and not when it runs out. -/
theorem tells_of_watchdog {o : Observation}
    (h : watchdog.verdict source peers signal assertions = .accepted o) :
    if signal.member = propertiesChangedMember then
      ∃ assert data, o.Tells signal.path assert data (some Watchdog.enabledProperty)
    else ∃ data, o.Tells signal.path true data none := by
  obtain ⟨event, hdecode, hobserve, -⟩ := of_verdict_eq_accepted h
  obtain ⟨read, hread, hevent⟩ := Step.bind_eq_ok.mp hdecode
  obtain ⟨w, rfl, rfl⟩ := Option.map_eq_some_iff.mp (Except.ok.inj hevent)
  have htells := observation_of_yields (Watchdog.observe_yields peers source w) hobserve
  split
  · obtain ⟨value, rfl⟩ := Watchdog.eq_enabled_of_ofSignal? ‹_› hread
    exact htells
  · obtain ⟨action, rfl⟩ := Watchdog.eq_timeout_of_ofSignal? ‹_› hread
    exact htells

/-- An error of the host is tracked. -/
theorem tells_of_hostError {o : Observation}
    (h : hostError.verdict source peers signal assertions = .accepted o) :
    ∃ interface assert data, signal.arg 0 = .ok (.str interface) ∧
      o.Tells signal.path assert data (some (enumLeaf interface)) := by
  obtain ⟨event, hdecode, hobserve, -⟩ := of_verdict_eq_accepted h
  obtain ⟨read, hread, hevent⟩ := Step.bind_eq_ok.mp hdecode
  obtain ⟨e, rfl, rfl⟩ := Option.map_eq_some_iff.mp (Except.ok.inj hevent)
  obtain ⟨interface, assert, harg, rfl⟩ := HostError.eq_of_ofSignal? hread
  exact ⟨interface, assert, _, harg, observation_of_yields (HostError.observe_yields _) hobserve⟩

/-- The host's power is no record, and not tracked. -/
theorem eq_of_power {o : Observation}
    (h : power.verdict source peers signal assertions = .accepted o) :
    ∃ e : PowerEvent, o = e.observe := by
  obtain ⟨event, hdecode, hobserve, -⟩ := of_verdict_eq_accepted h
  obtain ⟨_, -, hevent⟩ := Step.bind_eq_ok.mp hdecode
  obtain ⟨e, -, rfl⟩ := Option.map_eq_some_iff.mp (Except.ok.inj hevent)
  exact ⟨e, (Except.ok.inj hobserve).symm⟩

end Monitor

end EventLog
