import EventLog.Proofs.Monitor.Routing
import EventLog.Proofs.Monitor.Verdict

/-!
# EventLog.Proofs.Monitor.Episodes

Runs of signals, shown to a monitor or to all monitors together.

* `episodesOf`: what came of each signal of a run, and the state that it met;
* `replay`: a run without the signals that left the state alone goes the same way;
* `refusals_leave_no_trace`: signals whose events were refused are such ones.
-/

namespace EventLog

/-- A signal that arrives, and how the peers answer while it is looked at. -/
structure Arrival where
  signal : Signal
  peers : Peers

/-- What came of an arrival, and the state that it met. -/
structure Episode (σ β : Type) where
  arrival : Arrival
  before : σ
  outcome : β

/-! ## Runs -/

section Runs

variable {σ β : Type} (react : σ → Arrival → β) (next : β → σ)

/-- The state behind the arrivals of a run. -/
def stateAfter (state : σ) (arrivals : List Arrival) : σ :=
  arrivals.foldl (fun state arrival => next (react state arrival)) state

/-- The episodes of a run, one for each arrival. -/
def episodesOf (state : σ) : List Arrival → List (Episode σ β)
  | [] => []
  | arrival :: rest =>
    ⟨arrival, state, react state arrival⟩ :: episodesOf (next (react state arrival)) rest

variable {react next}

theorem stateAfter_concat (state : σ) (arrivals : List Arrival) (arrival : Arrival) :
    stateAfter react next state (arrivals ++ [arrival]) =
      next (react (stateAfter react next state arrivals) arrival) := by
  simp [stateAfter]

/-- The episodes of two runs are those of the first and, from its end, those of the second. -/
theorem episodesOf_append (state : σ) (front back : List Arrival) :
    episodesOf react next state (front ++ back) =
      episodesOf react next state front ++
        episodesOf react next (stateAfter react next state front) back := by
  induction front generalizing state with
  | nil => rfl
  | cons arrival front ih =>
    rw [List.cons_append, episodesOf, episodesOf, ih]
    rfl

theorem episodesOf_concat (state : σ) (arrivals : List Arrival) (arrival : Arrival) :
    episodesOf react next state (arrivals ++ [arrival]) =
      episodesOf react next state arrivals ++
        [⟨arrival, stateAfter react next state arrivals,
          react (stateAfter react next state arrivals) arrival⟩] := episodesOf_append ..

/-- Every episode is what came of its arrival. -/
theorem outcome_eq_of_mem {state : σ} {arrivals : List Arrival} {e : Episode σ β}
    (h : e ∈ episodesOf react next state arrivals) : e.outcome = react e.before e.arrival := by
  induction arrivals generalizing state with
  | nil => exact absurd h List.not_mem_nil
  | cons arrival rest ih =>
    rcases List.mem_cons.mp h with rfl | h
    · rfl
    · exact ih h

/-- **A run without the arrivals that left the state alone goes the same way**:
the others meet the same states, with the same outcomes. -/
theorem replay {keep : Episode σ β → Bool}
    (h : ∀ state arrival, keep ⟨arrival, state, react state arrival⟩ = false →
      next (react state arrival) = state) (state : σ) (arrivals : List Arrival) :
    let kept := (episodesOf react next state arrivals).filter keep
    episodesOf react next state (kept.map (·.arrival)) = kept ∧
      stateAfter react next state (kept.map (·.arrival))
        = stateAfter react next state arrivals := by
  induction arrivals generalizing state with
  | nil => exact ⟨rfl, rfl⟩
  | cons arrival rest ih =>
    simp only [episodesOf, List.filter_cons]
    cases hkeep : keep ⟨arrival, state, react state arrival⟩ with
    | true =>
      obtain ⟨hepisodes, hstate⟩ := ih (next (react state arrival))
      simp only [if_true, List.map_cons, episodesOf, hepisodes, true_and]
      exact hstate
    | false =>
      have hsame := h state arrival hkeep
      simp only [stateAfter, List.foldl_cons, hsame] at ih ⊢
      exact ih state

end Runs

/-! ## Runs of monitors -/

namespace Monitor

/-- What a monitor does with an arrival. -/
def react (m : Monitor) (source : EnabledSource) (state : MonitorState) (arrival : Arrival) :
    Processed := m.process source arrival.peers arrival.signal state

/-- What a monitor does in a run. -/
def episodes (m : Monitor) (source : EnabledSource) (state : MonitorState)
    (arrivals : List Arrival) : List (Episode MonitorState Processed) :=
  episodesOf (m.react source) Processed.state state arrivals

/-- What a monitor remembers behind a run. -/
def after (m : Monitor) (source : EnabledSource) (state : MonitorState)
    (arrivals : List Arrival) : MonitorState :=
  stateAfter (m.react source) Processed.state state arrivals

def verdictIn (m : Monitor) (source : EnabledSource) (e : Episode MonitorState Processed) :
    Verdict := m.verdict source e.arrival.peers e.arrival.signal e.before.assertions

end Monitor

namespace Monitors

/-- What the monitors do with an arrival. -/
def react (m : Monitors) (arrival : Arrival) : Dispatched := m.dispatch arrival.peers arrival.signal

/-- What the monitors do in a run. -/
def episodes (m : Monitors) (arrivals : List Arrival) : List (Episode Monitors Dispatched) :=
  episodesOf react Dispatched.monitors m arrivals

/-- The monitors behind a run. -/
def after (m : Monitors) (arrivals : List Arrival) : Monitors :=
  stateAfter react Dispatched.monitors m arrivals

/-- The verdict of the monitor that looks at a signal; to the others it is irrelevant. -/
def verdict (m : Monitors) (arrival : Arrival) : Verdict :=
  match m.handler? arrival.signal with
  | none => .irrelevant
  | some h => h.verdict m.config.enabledSource arrival.peers arrival.signal m.state.assertions

def verdictIn (e : Episode Monitors Dispatched) : Verdict := e.before.verdict e.arrival

/-- An arrival whose event is not accepted leaves no trace. -/
theorem react_of_not_accepted {m : Monitors} {arrival : Arrival}
    (h : (m.verdict arrival).isAccepted = false) :
    (m.react arrival).notices = [] ∧ (m.react arrival).monitors = m ∧
      AsksNoCommand (m.react arrival).queries := by
  rw [verdict] at h
  rw [react, dispatch_eq]
  cases hh : m.handler? arrival.signal with
  | none => exact ⟨rfl, rfl, asksNoCommand_nil⟩
  | some handler =>
    rw [hh] at h
    obtain ⟨hresult, hstate, hqueries⟩ := Monitor.process_of_not_accepted h
    exact ⟨by simp only [hresult]; rfl, by simp only [hstate], hqueries⟩

/-- An accepted event is that of the monitor that looks at the signal. -/
theorem react_of_accepted {m : Monitors} {arrival : Arrival} {o : Observation}
    (h : m.verdict arrival = .accepted o) :
    ∃ handler, m.handler? arrival.signal = some handler ∧
      handler.verdict m.config.enabledSource arrival.peers arrival.signal m.state.assertions
        = .accepted o ∧
      (m.react arrival).notices
        = (handler.finish arrival.peers o.notice m.state.noLog).1.toList ∧
      (m.react arrival).monitors.state.assertions
        = (Monitor.track o.change m.state.assertions).2 := by
  rw [verdict] at h
  cases hh : m.handler? arrival.signal with
  | none => rw [hh] at h; cases h
  | some handler =>
    rw [hh] at h
    rw [react, dispatch_eq, hh]
    exact ⟨handler, rfl, h, by simp only [Monitor.process_of_accepted h]; rfl,
      by simp only [Monitor.process_of_accepted h]⟩

end Monitors

/-! ## Refusals -/

/-- **An event that is refused leaves no trace.**  If an event fails, is none or
is a duplicate, the monitor remembers what it did and asks no command; if it is
accepted, the one condition that it changes changes, and no other.  So a run
without the arrivals whose events were refused goes the same way, for each
monitor and for all together. -/
theorem refusals_leave_no_trace :
    (∀ (m : Monitor) (source : EnabledSource) (peers : Peers) (signal : Signal)
        (state : MonitorState),
      let p := m.process source peers signal state
      match m.verdict source peers signal state.assertions with
      | .failed e => p.result = .error e ∧ p.state = state ∧ AsksNoCommand p.queries
      | .irrelevant =>
        m.decode signal = .ok none ∧ p.result = .ok none ∧ p.state = state ∧
          AsksNoCommand p.queries
      | .duplicate change =>
        (state.assertions.apply change.condition change.assert).1 = false ∧ p.result = .ok none ∧
          p.state = state ∧ AsksNoCommand p.queries
      | .accepted o =>
        m.decode signal ≠ .ok none ∧ (∃ notice, p.result = .ok notice) ∧
          match o.change with
          | none => p.state.assertions = state.assertions
          | some change =>
            (state.assertions.apply change.condition change.assert).1 = true ∧
              ∀ c, (c ∈ p.state.assertions ↔ c ∈ state.assertions) ↔ c ≠ change.condition) ∧
    (∀ (m : Monitor) (source : EnabledSource) (state : MonitorState) (arrivals : List Arrival),
      let kept := (m.episodes source state arrivals).filter fun e =>
        (m.verdictIn source e).isAccepted
      m.episodes source state (kept.map (·.arrival)) = kept ∧
        m.after source state (kept.map (·.arrival)) = m.after source state arrivals) ∧
    ∀ (m : Monitors) (arrivals : List Arrival),
      let kept := (m.episodes arrivals).filter fun e => (Monitors.verdictIn e).isAccepted
      m.episodes (kept.map (·.arrival)) = kept ∧
        m.after (kept.map (·.arrival)) = m.after arrivals := by
  refine ⟨fun m source peers signal state => ?_, fun m source => ?_, fun m => ?_⟩
  · have hrefused := @Monitor.process_of_not_accepted m source peers signal state
    have heq := Monitor.process_eq m source peers signal state
    cases hverdict : m.verdict source peers signal state.assertions with
    | failed e =>
      rw [hverdict] at hrefused heq
      exact ⟨congrArg Processed.result heq, (hrefused rfl).2⟩
    | irrelevant =>
      rw [hverdict] at hrefused heq
      exact ⟨Monitor.decode_of_verdict_eq_irrelevant hverdict, congrArg Processed.result heq,
        (hrefused rfl).2⟩
    | duplicate change =>
      rw [hverdict] at hrefused heq
      exact ⟨Monitor.apply_of_verdict_eq_duplicate hverdict, congrArg Processed.result heq,
        (hrefused rfl).2⟩
    | accepted o =>
      obtain ⟨event, hdecode, -, hwould⟩ := Monitor.of_verdict_eq_accepted hverdict
      simp only [Monitor.process_of_accepted hverdict]
      refine ⟨by simp [hdecode], ⟨_, rfl⟩, ?_⟩
      cases hchange : o.change with
      | none => rfl
      | some change =>
        have hwould := hwould change hchange
        refine ⟨(Assertions.apply_fst ..).trans hwould, fun c => ?_⟩
        rw [Assertions.wouldApply_eq_true] at hwould
        rw [Monitor.mem_track]
        grind
  · exact replay fun state arrival h => (Monitor.process_of_not_accepted h).2.1
  · exact replay (fun m arrival h => (Monitors.react_of_not_accepted h).2.1) m

end EventLog
