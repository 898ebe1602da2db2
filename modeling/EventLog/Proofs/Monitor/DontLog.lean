import EventLog.Proofs.Monitor.Episodes
import Mathlib.Data.List.Induction

/-!
# EventLog.Proofs.Monitor.DontLog

The host's wish that the events of its watchdog are not logged.

* `Watchdog.react_spec`: the wish is looked up in an episode or left alone, and an
  accepted event is logged unless the wish stands behind it;
* `Watchdog.noLog_after`: the wish is the one that was looked up last;
* `disable_follows_last_sample`: a watchdog that is disabled is logged by that wish,
  which is that of the last enabling unless the watchdog ran out since
  (`timeout_overrules_enable`).
-/

namespace EventLog

namespace Watchdog

/-- The questions that go to the host's management interface. -/
def commands (queries : List BusQuery) : List BusQuery := queries.filter (·.isCommand)

theorem commands_of_asksNoCommand {queries : List BusQuery} (h : AsksNoCommand queries) :
    commands queries = [] := List.filter_eq_nil_iff.mpr fun query hq => by simp [h query hq]

/-- What the watchdog's monitor does with an arrival. -/
def episode (source : EnabledSource) (state : MonitorState) (arrival : Arrival) :
    Episode MonitorState Processed :=
  ⟨arrival, state, Monitor.watchdog.react source state arrival⟩

section Episodes

variable (source : EnabledSource) (e : Episode MonitorState Processed)

/-- The watchdog was enabled, and was not before. -/
def isEnable : Bool := (Monitor.watchdog.verdictIn source e).change?.any (·.assert)

/-- The watchdog was disabled, and was not before. -/
def isDisable : Bool := (Monitor.watchdog.verdictIn source e).change?.any (!·.assert)

/-- The watchdog ran out: an event that is accepted and changes nothing that stands. -/
def isTimeout : Bool :=
  (Monitor.watchdog.verdictIn source e).isAccepted &&
    (Monitor.watchdog.verdictIn source e).change?.isNone

/-- The wish is looked up. -/
def isSample : Bool := isEnable source e || isTimeout source e

end Episodes

/-- The event of an episode is logged. -/
def isLogged (e : Episode MonitorState Processed) : Bool := e.outcome.result.toOption.join.isSome

/-! ## One episode -/

theorem finish_record (peers : Peers) (made : Record) (wish : Bool) :
    let asked := Monitor.asserts (.record made)
    let next := if asked then noLog peers else wish
    Monitor.watchdog.finish peers (.record made) wish =
      (if next then none else some (.record made), next, if asked then [noLogQuery] else []) := by
  intro asked next
  simp only [Monitor.finish, next, asked]
  split <;> rfl

variable {source : EnabledSource} {state : MonitorState} {arrival : Arrival}

/-- The record of an accepted event says that something came exactly if the wish is
looked up. -/
theorem record_of_accepted {o : Observation}
    (h : Monitor.watchdog.verdict source arrival.peers arrival.signal state.assertions
      = .accepted o) :
    ∃ made, o.notice = .record made ∧
      Monitor.asserts (.record made) = isSample source (episode source state arrival) := by
  have hverdict :
      Monitor.watchdog.verdictIn source (episode source state arrival) = .accepted o := h
  have htells := Monitor.tells_of_watchdog h
  split at htells
  · obtain ⟨assert, data, made, hnotice, htells, hchange⟩ := htells
    refine ⟨made, hnotice, ?_⟩
    simp [isSample, isEnable, isTimeout, hverdict, Verdict.change?, Verdict.observation?, hchange,
      Monitor.asserts, htells.assert_eq]
  · obtain ⟨data, made, hnotice, htells, hchange⟩ := htells
    refine ⟨made, hnotice, ?_⟩
    simp [isSample, isEnable, isTimeout, hverdict, Verdict.change?, Verdict.observation?, hchange,
      Monitor.asserts, htells.assert_eq, Verdict.isAccepted]

/-- **What an episode does to the wish**: it is looked up when the watchdog is enabled
or runs out, with one question; and an accepted event is logged unless the wish
stands behind the episode. -/
theorem react_spec (source : EnabledSource) (state : MonitorState) (arrival : Arrival) :
    let e := episode source state arrival
    e.outcome.state.noLog = (if isSample source e then noLog arrival.peers else state.noLog) ∧
      commands e.outcome.queries = (if isSample source e then [noLogQuery] else []) ∧
      isLogged e
        = ((Monitor.watchdog.verdictIn source e).isAccepted && !e.outcome.state.noLog) := by
  intro e
  have hasked := commands_of_asksNoCommand
    (Monitor.asked_asksNoCommand .watchdog source arrival.peers arrival.signal)
  rcases (Monitor.watchdog.verdictIn source e).accepted_or_refused with
    ⟨o, hverdict⟩ | ⟨hrefused, hnone⟩
  · obtain ⟨made, hnotice, hsample⟩ := record_of_accepted hverdict
    let next := if isSample source e then noLog arrival.peers else state.noLog
    have houtcome : e.outcome =
        ⟨.ok (if next then none else some (.record made)),
          ⟨(Monitor.track o.change state.assertions).2, next⟩,
          Monitor.watchdog.asked source arrival.peers arrival.signal ++
            if isSample source e then [noLogQuery] else []⟩ := by
      refine (Monitor.process_of_accepted hverdict).trans ?_
      rw [hnotice, finish_record, hsample]
      rfl
    rw [isLogged, houtcome, hverdict]
    refine ⟨rfl, ?_, ?_⟩
    · rw [commands, List.filter_append, ← commands, hasked, List.nil_append]
      split <;> rfl
    · change (Except.toOption (.ok _)).join.isSome = !next
      cases next <;> rfl
  · have hsample : isSample source e = false := by
      simp [isSample, isEnable, isTimeout, hrefused, hnone]
    obtain ⟨hresult, hstate, hqueries⟩ := Monitor.process_of_not_accepted hrefused
    rw [hsample, isLogged, hrefused]
    exact ⟨congrArg MonitorState.noLog hstate, commands_of_asksNoCommand hqueries,
      congrArg Option.isSome hresult⟩

/-- Where the watchdog is enabled its event was accepted, and the wish looked up. -/
theorem of_isEnable {e : Episode MonitorState Processed} (h : isEnable source e = true) :
    (Monitor.watchdog.verdictIn source e).isAccepted = true ∧ isSample source e = true := by
  refine ⟨?_, by rw [isSample, h, Bool.true_or]⟩
  obtain ⟨_, hchange, -⟩ := (Option.any_eq_true _ _).mp h
  exact Verdict.isAccepted_of_change? hchange

/-- Where the watchdog is disabled its event was accepted, and the wish not looked up. -/
theorem of_isDisable {e : Episode MonitorState Processed} (h : isDisable source e = true) :
    (Monitor.watchdog.verdictIn source e).isAccepted = true ∧ isSample source e = false := by
  obtain ⟨change, hchange, hassert⟩ := (Option.any_eq_true _ _).mp h
  refine ⟨Verdict.isAccepted_of_change? hchange, ?_⟩
  rw [isSample, isEnable, isTimeout, hchange, Option.any_some, Option.isNone_some, Bool.and_false,
    Bool.or_false]
  simpa using hassert

/-! ## A whole run -/

/-- An episode of a run is that of its arrival in the state before. -/
theorem eq_episode_of_mem {arrivals : List Arrival} {e : Episode MonitorState Processed}
    (h : e ∈ Monitor.watchdog.episodes source state arrivals) :
    e = episode source e.before e.arrival := by
  have houtcome := outcome_eq_of_mem h
  cases e
  exact congrArg (Episode.mk _ _) houtcome

/-- The wish is the one that was looked up last; to begin with there is none. -/
theorem noLog_after (source : EnabledSource) (arrivals : List Arrival) :
    (Monitor.watchdog.after source .initial arrivals).noLog =
      ((Monitor.watchdog.episodes source .initial arrivals).filter (isSample source)).getLast?.any
        (noLog ·.arrival.peers) := by
  induction arrivals using List.reverseRecOn with
  | nil => rfl
  | append_singleton arrivals arrival ih =>
    have hspec := (react_spec source (Monitor.watchdog.after source .initial arrivals) arrival).1
    have hafter : Monitor.watchdog.after source .initial (arrivals ++ [arrival]) =
        (episode source (Monitor.watchdog.after source .initial arrivals) arrival).outcome.state :=
      stateAfter_concat ..
    have hepisodes : Monitor.watchdog.episodes source .initial (arrivals ++ [arrival]) =
        Monitor.watchdog.episodes source .initial arrivals ++
          [episode source (Monitor.watchdog.after source .initial arrivals) arrival] :=
      episodesOf_concat ..
    rw [hafter, hspec, hepisodes, List.filter_append, List.filter_cons, List.filter_nil]
    split
    · rw [List.getLast?_concat]
      rfl
    · rw [List.append_nil, ih]

/-- **A watchdog that is disabled is logged by the wish that was looked up last.**
The wish is looked up, with one question, in the episodes in which the watchdog is
enabled or runs out, and in no others.  So a watchdog that is disabled is logged
exactly if its enabling was, provided that it did not run out since. -/
theorem disable_follows_last_sample (source : EnabledSource) (arrivals : List Arrival)
    (arrival : Arrival) :
    let episodes := Monitor.watchdog.episodes source .initial arrivals
    let last? := (episodes.filter fun e => isEnable source e || isTimeout source e).getLast?
    let state := Monitor.watchdog.after source .initial arrivals
    let next := episode source state arrival
    state.noLog = last?.any (noLog ·.arrival.peers) ∧
      (∀ e ∈ episodes, commands e.outcome.queries =
        if isEnable source e || isTimeout source e then [noLogQuery] else []) ∧
      (isDisable source next = true → isLogged next = !state.noLog) ∧
      ∀ e ∈ last?, isEnable source e = true → isDisable source next = true →
        isLogged next = isLogged e := by
  intro episodes last? state next
  have hwish : state.noLog = last?.any (noLog ·.arrival.peers) := noLog_after source arrivals
  have hdisable (h : isDisable source next = true) : isLogged next = !state.noLog := by
    obtain ⟨hnoLog, -, hlogged⟩ := react_spec source state arrival
    obtain ⟨haccepted, hsample⟩ := of_isDisable h
    rw [hlogged, hnoLog, haccepted, hsample]
    rfl
  refine ⟨hwish, fun e he => ?_, hdisable, fun e he henable h => ?_⟩
  · rw [eq_episode_of_mem he]
    exact (react_spec source e.before e.arrival).2.1
  · have hmem : e ∈ episodes := (List.mem_filter.mp (List.mem_of_getLast? he)).1
    obtain ⟨hnoLog, -, hlogged⟩ := react_spec source e.before e.arrival
    rw [← eq_episode_of_mem hmem] at hnoLog hlogged
    obtain ⟨haccepted, hsample⟩ := of_isEnable henable
    rw [hdisable h, hwish, hlogged, hnoLog, haccepted, hsample, Option.mem_def.mp he]
    rfl

/-- An enabling that is not to be logged, and again one that could be but is none: the
disabling is not logged. -/
theorem disable_follows_unlogged_enable :
    let enabled (value : Bool) : Signal :=
      .propertiesChanged ":1.7" "/watchdog0" stateInterface [(enabledProperty, .bool value)]
    let peers (byte : UInt8) : Peers :=
      { Peers.unavailable "down" with
        properties := fun _ _ _ => .ok []
        command := fun netfn lun cmd _ => .ok ⟨netfn, lun, cmd, 0, [byte]⟩ }
    let first : Arrival := ⟨enabled true, peers 0x80⟩
    let arrivals := [first, ⟨enabled true, peers 0⟩]
    let next := episode .signal (Monitor.watchdog.after .signal .initial arrivals)
      ⟨enabled false, peers 0⟩
    isDisable .signal next = true ∧ isLogged next = false := by
  intro enabled peers first arrivals next
  let opening := episode .signal .initial first
  let again := episode .signal opening.outcome.state ⟨enabled true, peers 0⟩
  have henable : isEnable .signal opening = true := by decide
  have hagain : (isEnable .signal again || isTimeout .signal again) = false := by decide
  have hdisable : isDisable .signal next = true := by decide
  have hlast : ([opening, again].filter fun e =>
      isEnable .signal e || isTimeout .signal e).getLast? = some opening := by
    simp [henable, hagain]
  have hfollows := (disable_follows_last_sample .signal arrivals ⟨enabled false, peers 0⟩).2.2.2
    opening hlast henable hdisable
  have hunlogged : isLogged opening = false := by decide
  exact ⟨hdisable, hfollows.trans hunlogged⟩

/-- The enabling is not logged, but then the watchdog runs out, the wish is looked up
again, and the disabling is logged. -/
theorem timeout_overrules_enable :
    let enabled (value : Bool) : Signal :=
      .propertiesChanged ":1.7" "/watchdog0" stateInterface [(enabledProperty, .bool value)]
    let timeout : Signal := ⟨":1.7", "/watchdog0", timeoutInterface, "Timeout", [.str "HardReset"]⟩
    let peers (byte : UInt8) : Peers :=
      { Peers.unavailable "down" with
        properties := fun _ _ _ => .ok []
        command := fun netfn lun cmd _ => .ok ⟨netfn, lun, cmd, 0, [byte]⟩ }
    let arrivals := [⟨enabled true, peers 0x80⟩, ⟨timeout, peers 0⟩]
    let episodes := Monitor.watchdog.episodes .signal .initial arrivals
    let state := Monitor.watchdog.after .signal .initial arrivals
    let next := episode .signal state ⟨enabled false, peers 0⟩
    episodes.map (isEnable .signal) = [true, false] ∧
      episodes.map (noLog ·.arrival.peers) = [true, false] ∧ state.noLog = false ∧
      episodes.map (commands ·.outcome.queries) = [[noLogQuery], [noLogQuery]] ∧
      isDisable .signal next = true ∧ isLogged next = true ∧
      episodes.map isLogged = [false, true] := by
  decide

end Watchdog

end EventLog
