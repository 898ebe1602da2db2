import EventLog.Daemon.Basic
import EventLog.Proofs.Monitor.Episodes
import Mathlib.Data.List.Perm.Subperm

/-!
# EventLog.Proofs.Monitor.Relay

Signals that reach the monitors over a bus on which nobody else listens.

* `accepts_patterns`: the subscription matches a name if some enabled monitor
  looks at signals of that name;
* `SignalBus.tended`: such a bus, whatever waits in its queue;
* `Relay.run`: signals are published in batches, and after each batch the
  monitors are shown all that waits;
* `relay_transparent`: the bus keeps away the signals that nobody looks at, and
  changes nothing else.
-/

namespace EventLog

/-! ## Who looks at a signal -/

namespace Monitors

/-- Whether some enabled monitor looks at a signal. -/
def looksAt (m : Monitors) (signal : Signal) : Bool := m.enabled.any (·.accepts signal.name)

/-- The monitors' subscription on a bus. -/
def subscription (m : Monitors) (queue : Nat) : Subscription :=
  ⟨Daemon.subscriber, m.patterns, queue⟩

variable {m : Monitors} {peers : Peers} {signal : Signal}

/-- The subscription matches a name if some enabled monitor looks at signals of that name. -/
theorem accepts_patterns (m : Monitors) (name : String) :
    m.patterns.any (·.accepts name) = m.enabled.any (·.accepts name) := List.any_flatMap

theorem looksAt_eq_isSome_handler? (m : Monitors) (signal : Signal) :
    m.looksAt signal = (m.handler? signal).isSome := by
  rw [looksAt, handler?, Bool.eq_iff_iff, List.find?_isSome, List.any_eq_true]

/-- At most one of the enabled monitors looks at a signal. -/
theorem length_filter_accepts_le (m : Monitors) (signal : Signal) :
    (m.enabled.filter (·.accepts signal.name)).length ≤ 1 := by
  have hnodup : (m.enabled.filter (·.accepts signal.name)).Nodup :=
    ((by decide : Monitor.all.Nodup).filter _).filter _
  have hsubset : m.enabled.filter (·.accepts signal.name) ⊆ (m.handler? signal).toList := by
    intro h hmem
    obtain ⟨henabled, haccepts⟩ := List.mem_filter.mp hmem
    obtain ⟨handler, hhandler⟩ : ∃ handler, m.handler? signal = some handler :=
      Option.isSome_iff_exists.mp (List.find?_isSome.mpr ⟨h, henabled, haccepts⟩)
    rw [hhandler, Monitor.eq_of_accepts haccepts (accepts_of_handler? hhandler)]
    exact List.mem_singleton_self handler
  exact Nat.le_trans (List.subperm_of_subset hnodup hsubset).length_le Option.length_toList_le

/-- A signal that nobody looks at changes nothing. -/
theorem dispatch_of_not_looksAt (h : m.looksAt signal = false) :
    m.dispatch peers signal = ⟨[], m, []⟩ := by
  rw [looksAt_eq_isSome_handler?, Option.isSome_eq_false_iff, Option.isNone_iff_eq_none] at h
  rw [dispatch_eq, h]

/-- There is one notice at most of a signal. -/
theorem length_notices_dispatch_le (m : Monitors) (peers : Peers) (signal : Signal) :
    (m.dispatch peers signal).notices.length ≤ 1 := by
  rw [dispatch_eq]
  cases m.handler? signal with
  | none => exact Nat.zero_le 1
  | some h => exact Option.length_toList_le

/-- Showing a signal to the monitors leaves them as they were set up. -/
@[simp] theorem config_dispatch (m : Monitors) (peers : Peers) (signal : Signal) :
    (m.dispatch peers signal).monitors.config = m.config := by
  rw [dispatch_eq]
  cases m.handler? signal <;> rfl

theorem patterns_eq_of_config_eq {n : Monitors} (h : n.config = m.config) :
    n.patterns = m.patterns := by rw [patterns, patterns, enabled, enabled, h]

theorem looksAt_eq_of_config_eq {n : Monitors} (h : n.config = m.config) (signal : Signal) :
    n.looksAt signal = m.looksAt signal := by rw [looksAt, looksAt, enabled, enabled, h]

/-- No run changes how the monitors are set up. -/
theorem config_after (m : Monitors) (arrivals : List Arrival) :
    (m.after arrivals).config = m.config := by
  induction arrivals generalizing m with
  | nil => rfl
  | cons arrival rest ih => exact (ih _).trans (config_dispatch m _ _)

/-- The monitors are set up alike in all episodes of a run. -/
theorem config_of_mem_episodes {m : Monitors} {arrivals : List Arrival}
    {e : Episode Monitors Dispatched} (h : e ∈ m.episodes arrivals) :
    e.before.config = m.config := by
  induction arrivals generalizing m with
  | nil => exact absurd h List.not_mem_nil
  | cons arrival rest ih =>
    rcases List.mem_cons.mp h with rfl | h
    · rfl
    · exact (ih h).trans (config_dispatch m _ _)

/-- The signals that nobody looks at can be kept away from the monitors. -/
theorem episodes_filter_looksAt (m : Monitors) (arrivals : List Arrival) :
    m.episodes (arrivals.filter fun a => m.looksAt a.signal)
        = (m.episodes arrivals).filter (fun e => m.looksAt e.arrival.signal) ∧
      m.after (arrivals.filter fun a => m.looksAt a.signal) = m.after arrivals := by
  induction arrivals generalizing m with
  | nil => exact ⟨rfl, rfl⟩
  | cons arrival rest ih =>
    have hlooks (signal : Signal) :
        (m.react arrival).monitors.looksAt signal = m.looksAt signal :=
      looksAt_eq_of_config_eq (config_dispatch ..) signal
    obtain ⟨hepisodes, hafter⟩ := ih (m.react arrival).monitors
    simp only [hlooks] at hepisodes hafter
    cases h : m.looksAt arrival.signal with
    | true =>
      rw [List.filter_cons_of_pos (by exact h)]
      refine ⟨?_, hafter⟩
      rw [episodes, episodesOf, episodes, episodesOf, List.filter_cons_of_pos (by exact h)]
      exact congrArg _ hepisodes
    | false =>
      have hsame : (m.react arrival).monitors = m := by
        rw [react, dispatch_of_not_looksAt h]
      rw [hsame] at hepisodes hafter
      rw [List.filter_cons_of_neg (by simp [h]), hepisodes, hafter]
      refine ⟨?_, ?_⟩
      · rw [episodes, episodes, episodesOf, List.filter_cons_of_neg (by simp [h]), hsame]
      · rw [after, after, stateAfter, stateAfter, List.foldl_cons, hsame]

end Monitors

/-! ## The bus of the monitors -/

namespace SignalBus

/-- A bus on which nobody but the monitors listens, with what waits for them. -/
def tended (m : Monitors) (waiting : List Signal) : SignalBus :=
  ⟨[m.subscription 0], [⟨waiting, true⟩]⟩

variable {m : Monitors}

theorem subscribe_empty (m : Monitors) :
    empty.subscribe Daemon.subscriber m.patterns = (0, tended m []) := rfl

/-- A published signal waits for the monitors if one of them looks at it. -/
theorem publish_tended (m : Monitors) (waiting : List Signal) (signal : Signal) :
    (tended m waiting).publish signal =
      (if m.looksAt signal then 1 else 0,
        tended m (waiting ++ [signal].filter m.looksAt)) := by
  have hdelivers : (tended m waiting).delivers signal.name (m.subscription 0)
      = m.looksAt signal := by
    rw [delivers, Subscription.accepts, Monitors.looksAt, ← Monitors.accepts_patterns]
    exact Bool.and_true _
  have hreceivers : (tended m waiting).subscriptions.filter
      ((tended m waiting).delivers signal.name)
        = if m.looksAt signal then [m.subscription 0] else [] := by
    show List.filter _ [m.subscription 0] = _
    rw [List.filter_cons, hdelivers, List.filter_nil]
  rw [publish, hreceivers]
  cases h : m.looksAt signal with
  | true => simp [tended, Monitors.subscription, h]
  | false => simp [tended, h]

theorem drain_tended (m : Monitors) (waiting : List Signal) :
    (tended m waiting).drain 0 = (waiting, tended m []) := rfl

/-- A bus for monitors that are set up alike is the same bus. -/
theorem tended_eq_of_config_eq {n : Monitors} (h : n.config = m.config) (waiting : List Signal) :
    tended n waiting = tended m waiting := by
  rw [tended, tended, Monitors.subscription, Monitors.subscription,
    Monitors.patterns_eq_of_config_eq h]

end SignalBus

/-! ## Runs over the bus -/

/-- Signals that are published one behind the other, and how the peers answer
when the monitors then look at what waits. -/
structure Batch where
  signals : List Signal
  peers : Peers

/-- The arrivals of a batch whose signals are all shown to the monitors. -/
def Batch.arrivals (b : Batch) : List Arrival := b.signals.map (⟨·, b.peers⟩)

/-- The monitors, and the bus and the queue that they get their signals from. -/
structure Relay where
  bus : SignalBus
  queue : Nat
  monitors : Monitors

/-- What became of signals that were published: the number of subscriptions that
each went to, what came of those that reached the monitors, and where that ended. -/
structure Relayed where
  delivered : List Nat
  episodes : List (Episode Monitors Dispatched)
  relay : Relay

namespace Relay

def start (m : Monitors) : Relay :=
  let (queue, bus) := SignalBus.empty.subscribe Daemon.subscriber m.patterns
  ⟨bus, queue, m⟩

/-- Publishes signals, one behind the other. -/
def publishAll (bus : SignalBus) : List Signal → List Nat × SignalBus
  | [] => ([], bus)
  | signal :: rest =>
    let (delivered, bus) := bus.publish signal
    let (others, bus) := publishAll bus rest
    (delivered :: others, bus)

/-- Publishes a batch, and shows the monitors all that waits. -/
def step (r : Relay) (b : Batch) : Relayed :=
  let (delivered, bus) := publishAll r.bus b.signals
  let (waiting, bus) := bus.drain r.queue
  let arrivals := (Batch.mk waiting b.peers).arrivals
  ⟨delivered, r.monitors.episodes arrivals, { r with bus, monitors := r.monitors.after arrivals }⟩

/-- Publishes batches, one behind the other. -/
def run (r : Relay) : List Batch → Relayed
  | [] => ⟨[], [], r⟩
  | b :: rest =>
    let first := r.step b
    let others := run first.relay rest
    ⟨first.delivered ++ others.delivered, first.episodes ++ others.episodes, others.relay⟩

/-- Of several signals those wait that the monitors look at, and each was delivered to them only. -/
theorem publishAll_tended (m : Monitors) (waiting signals : List Signal) :
    publishAll (SignalBus.tended m waiting) signals =
      (signals.map fun s => if m.looksAt s then 1 else 0,
        SignalBus.tended m (waiting ++ signals.filter m.looksAt)) := by
  induction signals generalizing waiting with
  | nil => rw [publishAll, List.filter_nil, List.append_nil]; rfl
  | cons signal rest ih =>
    rw [publishAll, SignalBus.publish_tended]
    simp only [ih, List.map_cons, List.append_assoc, ← List.filter_append, List.singleton_append]

/-- What a batch comes to. -/
theorem step_start (m : Monitors) (b : Batch) :
    (start m).step b =
      ⟨b.signals.map fun s => if m.looksAt s then 1 else 0,
        (m.episodes b.arrivals).filter (fun e => m.looksAt e.arrival.signal),
        start (m.after b.arrivals)⟩ := by
  have harrivals : (Batch.mk (b.signals.filter m.looksAt) b.peers).arrivals
      = b.arrivals.filter fun a => m.looksAt a.signal := by
    rw [Batch.arrivals, Batch.arrivals, List.filter_map]
    rfl
  obtain ⟨hepisodes, hafter⟩ := m.episodes_filter_looksAt b.arrivals
  have hbus := SignalBus.tended_eq_of_config_eq (m.config_after b.arrivals) []
  rw [step, start, SignalBus.subscribe_empty]
  simp only [publishAll_tended, List.nil_append, SignalBus.drain_tended, harrivals, hepisodes,
    hafter]
  rw [start, SignalBus.subscribe_empty, hbus]

/-- What a run of batches comes to. -/
theorem run_start (m : Monitors) (batches : List Batch) :
    (start m).run batches =
      ⟨(batches.flatMap (·.signals)).map fun s => if m.looksAt s then 1 else 0,
        (m.episodes (batches.flatMap (·.arrivals))).filter (fun e => m.looksAt e.arrival.signal),
        start (m.after (batches.flatMap (·.arrivals)))⟩ := by
  induction batches generalizing m with
  | nil => rfl
  | cons b rest ih =>
    have hlooks : (m.after b.arrivals).looksAt = m.looksAt :=
      funext (Monitors.looksAt_eq_of_config_eq (m.config_after b.arrivals))
    rw [run, step_start]
    simp only [ih, hlooks, List.flatMap_cons, List.map_append]
    rw [Monitors.episodes, Monitors.episodes, Monitors.episodes, episodesOf_append,
      List.filter_append, Monitors.after, Monitors.after, Monitors.after, stateAfter, stateAfter,
      stateAfter, List.foldl_append]

end Relay

/-- What is drawn from the episodes is the same without those that come to nothing. -/
theorem flatMap_filter_of_eq_nil {α β : Type} {keep : α → Bool} {f : α → List β} {l : List α}
    (h : ∀ a ∈ l, keep a = false → f a = []) : (l.filter keep).flatMap f = l.flatMap f := by
  induction l with
  | nil => rfl
  | cons a l ih =>
    have ih := ih fun b hb => h b (List.mem_cons_of_mem a hb)
    cases hkeep : keep a with
    | true => rw [List.filter_cons_of_pos hkeep, List.flatMap_cons, List.flatMap_cons, ih]
    | false =>
      rw [List.filter_cons_of_neg (by simp [hkeep]), ih, List.flatMap_cons,
        h a List.mem_cons_self hkeep, List.nil_append]

/-- **Routing over the bus is transparent and unambiguous.**  One of the enabled
monitors at most looks at a signal, there is one notice of it at most, and the
monitors' subscription matches its name if one of them looks at it.  So if
signals are published on a bus on which nobody but the monitors listens, each
goes to one subscription or to none, the latter if nobody looks at it; the
monitors have the same to report, ask the same questions and remember the same
as if they were shown every signal; and nothing is left waiting. -/
theorem relay_transparent (m : Monitors) :
    (∀ signal : Signal,
      (m.enabled.filter (·.accepts signal.name)).length ≤ 1 ∧
      (∀ peers, (m.dispatch peers signal).notices.length ≤ 1) ∧
      ∀ queue, ((m.subscription queue).accepts signal.name = true ↔
        ∃ h ∈ m.enabled, h.accepts signal.name = true)) ∧
    ∀ batches : List Batch,
      let relayed := (Relay.start m).run batches
      let arrivals := batches.flatMap (·.arrivals)
      let direct := m.episodes arrivals
      relayed.delivered = (batches.flatMap (·.signals)).map (fun s =>
        if m.enabled.any (·.accepts s.name) then 1 else 0) ∧
      relayed.episodes = direct.filter (fun e =>
        m.enabled.any (·.accepts e.arrival.signal.name)) ∧
      relayed.episodes.flatMap (·.outcome.notices) = direct.flatMap (·.outcome.notices) ∧
      relayed.episodes.flatMap (·.outcome.queries) = direct.flatMap (·.outcome.queries) ∧
      relayed.relay.monitors = m.after arrivals ∧
      relayed.relay.bus.queues = [⟨[], true⟩] := by
  refine ⟨fun signal => ⟨m.length_filter_accepts_le signal,
    fun peers => m.length_notices_dispatch_le peers signal, fun queue => ?_⟩, fun batches => ?_⟩
  · exact (Bool.eq_iff_iff.mp (m.accepts_patterns signal.name)).trans List.any_eq_true
  · have hnothing : ∀ e ∈ m.episodes (batches.flatMap (·.arrivals)),
        m.looksAt e.arrival.signal = false → e.outcome.notices = [] ∧ e.outcome.queries = [] := by
      intro e he h
      rw [← Monitors.looksAt_eq_of_config_eq (Monitors.config_of_mem_episodes he)] at h
      rw [outcome_eq_of_mem he, Monitors.react, Monitors.dispatch_of_not_looksAt h]
      exact ⟨rfl, rfl⟩
    simp only [Relay.run_start]
    exact ⟨rfl, rfl, flatMap_filter_of_eq_nil fun e he h => (hnothing e he h).1,
      flatMap_filter_of_eq_nil fun e he h => (hnothing e he h).2, rfl, rfl⟩

end EventLog
