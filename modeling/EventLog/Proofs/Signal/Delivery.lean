import EventLog.Signal.Bus
import Mathlib.Data.List.Induction
import Mathlib.Data.List.Nodup
import Mathlib.Data.List.TakeWhile
import Mathlib.Logic.Function.Basic

/-!
# EventLog.Proofs.Signal.Delivery

What comes out of the queues of a bus, for any history of subscriptions that
start and end, signals that are published, and queues that are drained or closed.

* `Tenure`: a subscription of a history, with what happened after it started;
* `Tenure.due`: the signals that were published while it was in force and whose
  names one of its patterns matches;
* `Station`: a bus, and what was drained from its queues;
* `Station.Delivers`: what a history makes of a station, told from its tenures;
* `delivers_once_in_order`: what was drained and what waits is what was due.
-/

namespace EventLog

/-! ## Histories -/

/-- What can happen on a bus. -/
inductive BusOp where
  | subscribe (subscriber : String) (patterns : List Pattern)
  | unsubscribe (subscriber : String)
  | publish (signal : Signal)
  | close (queue : Nat)
  | drain (queue : Nat)

namespace BusOp

/-- Whether a subscription of a subscriber ends here; a new one takes its place. -/
def ends (subscriber : String) : BusOp → Bool
  | subscribe other _ | unsubscribe other => other == subscriber
  | _ => false

/-- Whether a queue is closed here. -/
def closes (queue : Nat) : BusOp → Bool
  | close other => other == queue
  | _ => false

/-- The signal that is published here. -/
def signal? : BusOp → Option Signal
  | publish signal => some signal
  | _ => none

end BusOp

/-- The signals that were published before a subscription ended, and whose names
one of its patterns matches. -/
def Subscription.dueAfter (s : Subscription) (later : List BusOp) : List Signal :=
  ((later.takeWhile (!·.ends s.subscriber)).filterMap BusOp.signal?).filter (s.accepts ·.name)

/-- A subscription that was started, and what happened after that. -/
structure Tenure where
  subscription : Subscription
  later : List BusOp

namespace Tenure

/-- The number of its queue. -/
def queue (t : Tenure) : Nat := t.subscription.queue

/-- All signals that were due. -/
def due (t : Tenure) : List Signal := t.subscription.dueAfter t.later

/-- Whether the subscription has not ended. -/
def inForce (t : Tenure) : Bool := t.later.all (!·.ends t.subscription.subscriber)

/-- Whether the queue was not closed. -/
def isHeld (t : Tenure) : Bool := t.later.all (!·.closes t.queue)

/-- The signals that were due before the queue was closed. -/
def reached (t : Tenure) : List Signal :=
  t.subscription.dueAfter (t.later.takeWhile (!·.closes t.queue))

/-- A tenure when one thing more has happened. -/
def extend (op : BusOp) (t : Tenure) : Tenure := { t with later := t.later ++ [op] }

end Tenure

/-- The tenures of a history; their queues are numbered from a number on. -/
def tenuresFrom (first : Nat) : List BusOp → List Tenure
  | [] => []
  | .subscribe subscriber patterns :: ops =>
    ⟨⟨subscriber, patterns, first⟩, ops⟩ :: tenuresFrom (first + 1) ops
  | _ :: ops => tenuresFrom first ops

/-- The tenures of a history, in the order in which they started. -/
def tenures (ops : List BusOp) : List Tenure := tenuresFrom 0 ops

/-- A subscriber subscribed, and did not unsubscribe since. -/
def IsSubscribed (ops : List BusOp) (subscriber : String) : Prop :=
  ∃ before patterns after, ops = before ++ .subscribe subscriber patterns :: after ∧
    .unsubscribe subscriber ∉ after

/-- A bus, and what was drained from each of its queues. -/
structure Station where
  bus : SignalBus
  drained : Nat → List Signal

namespace Station

/-- The station where nothing has happened. -/
def start : Station := ⟨.empty, fun _ => []⟩

/-- The station when one thing more has happened. -/
def step (s : Station) : BusOp → Station
  | .subscribe subscriber patterns => { s with bus := (s.bus.subscribe subscriber patterns).2 }
  | .unsubscribe subscriber => { s with bus := s.bus.unsubscribe subscriber }
  | .publish signal => { s with bus := (s.bus.publish signal).2 }
  | .close queue => { s with bus := s.bus.close queue }
  | .drain queue =>
    ⟨(s.bus.drain queue).2,
      Function.update s.drained queue (s.drained queue ++ (s.bus.drain queue).1)⟩

/-- The station after a history. -/
def run (ops : List BusOp) : Station := ops.foldl step start

theorem run_concat (ops : List BusOp) (op : BusOp) : run (ops ++ [op]) = (run ops).step op := by
  simp [run]

end Station

/-! ## One thing more -/

theorem takeWhile_concat (p : BusOp → Bool) (ops : List BusOp) (op : BusOp) :
    (ops ++ [op]).takeWhile p = if ops.all p then ops ++ [op].takeWhile p else ops.takeWhile p := by
  induction ops with
  | nil => simp
  | cons head ops ih =>
    cases h : p head
    · simp [h]
    · simp only [List.cons_append, List.takeWhile_cons, h, if_true, ih, List.all_cons,
        Bool.true_and]
      split <;> rfl

namespace Subscription

variable (s : Subscription)

/-- What an operation brings to a subscription in force. -/
def brought (op : BusOp) : List Signal := op.signal?.toList.filter (s.accepts ·.name)

theorem brought_of_ends {op : BusOp} (h : op.ends s.subscriber = true) : s.brought op = [] := by
  cases op <;> first | rfl | cases h

theorem brought_of_closes {op : BusOp} {queue : Nat} (h : op.closes queue = true) :
    s.brought op = [] := by
  cases op <;> first | rfl | cases h

/-- One more operation makes due what it brings, unless the subscription has ended before. -/
theorem dueAfter_concat (later : List BusOp) (op : BusOp) :
    s.dueAfter (later ++ [op]) = s.dueAfter later ++
      if later.all (!·.ends s.subscriber) then s.brought op else [] := by
  rw [dueAfter, dueAfter, takeWhile_concat]
  split
  · next h =>
    have hself : later.takeWhile (!·.ends s.subscriber) = later :=
      List.takeWhile_eq_self_iff.mpr (List.all_eq_true.mp h)
    rw [hself, List.filterMap_append, List.filter_append]
    refine congrArg _ ?_
    cases hends : op.ends s.subscriber
    · rw [List.takeWhile_cons_of_pos (by simp [hends]), List.takeWhile_nil, brought,
        List.filterMap_cons]
      cases op.signal? <;> rfl
    · rw [List.takeWhile_cons_of_neg (by simp [hends]), brought_of_ends s hends]
      rfl
  · exact (List.append_nil _).symm

/-- What is due of an earlier part of the run stays due, and comes first. -/
theorem dueAfter_prefix {front later : List BusOp} (h : front <+: later) :
    s.dueAfter front <+: s.dueAfter later := by
  obtain ⟨rest, rfl⟩ := h
  refine List.IsPrefix.filter _ (List.IsPrefix.filterMap _ ?_)
  rw [List.takeWhile_append]
  split
  · next hlength =>
    rw [(List.takeWhile_prefix _).eq_of_length hlength]
    exact List.prefix_append _ _
  · exact List.prefix_rfl

end Subscription

namespace Tenure

variable (op : BusOp) (t : Tenure)

@[simp] theorem queue_extend : (t.extend op).queue = t.queue := rfl

@[simp] theorem subscription_extend : (t.extend op).subscription = t.subscription := rfl

@[simp] theorem inForce_extend :
    (t.extend op).inForce = (t.inForce && !op.ends t.subscription.subscriber) := by
  simp [inForce, extend]

@[simp] theorem isHeld_extend : (t.extend op).isHeld = (t.isHeld && !op.closes t.queue) := by
  have hqueue : Tenure.queue ⟨t.subscription, t.later ++ [op]⟩ = t.queue := rfl
  simp [isHeld, extend, hqueue]

theorem reached_prefix : t.reached <+: t.due :=
  t.subscription.dueAfter_prefix (List.takeWhile_prefix _)

/-- All that was due reached a queue that is still held. -/
theorem reached_of_isHeld {t : Tenure} (h : t.isHeld = true) : t.reached = t.due := by
  rw [reached, due, List.takeWhile_eq_self_iff.mpr (List.all_eq_true.mp h)]

/-- A subscription in force gets what an operation brings, if its queue is open. -/
theorem reached_extend :
    (t.extend op).reached = t.reached ++
      if t.isHeld && t.inForce then t.subscription.brought op else [] := by
  have hreached : (t.extend op).reached
      = t.subscription.dueAfter ((t.later ++ [op]).takeWhile (!·.closes t.queue)) := rfl
  rw [hreached, takeWhile_concat]
  cases hheld : t.isHeld
  · have hall : ¬ t.later.all (!·.closes t.queue) = true := Bool.eq_false_iff.mp hheld
    rw [if_neg hall]
    exact (List.append_nil _).symm
  · have hall : t.later.all (!·.closes t.queue) = true := hheld
    rw [if_pos hall, reached_of_isHeld hheld, Bool.true_and]
    cases hcloses : op.closes t.queue
    · rw [List.takeWhile_cons, hcloses]
      exact t.subscription.dueAfter_concat t.later op
    · rw [List.takeWhile_cons, hcloses, t.subscription.brought_of_closes hcloses]
      simp [due]

end Tenure

/-- The tenure that starts here, if one does. -/
def BusOp.tenure? (queue : Nat) : BusOp → Option Tenure
  | .subscribe subscriber patterns => some ⟨⟨subscriber, patterns, queue⟩, []⟩
  | _ => none

/-- One more operation extends the tenures there are, and may begin one. -/
theorem tenuresFrom_concat (first : Nat) (ops : List BusOp) (op : BusOp) :
    tenuresFrom first (ops ++ [op]) = (tenuresFrom first ops).map (Tenure.extend op)
      ++ (op.tenure? (first + (tenuresFrom first ops).length)).toList := by
  induction ops generalizing first with
  | nil => cases op <;> rfl
  | cons head ops ih =>
    cases head <;>
      simp [tenuresFrom, ih, Tenure.extend, Nat.add_assoc, Nat.add_comm 1]

theorem tenures_concat (ops : List BusOp) (op : BusOp) :
    tenures (ops ++ [op]) = (tenures ops).map (Tenure.extend op)
      ++ (op.tenure? (tenures ops).length).toList := by
  rw [tenures, tenuresFrom_concat, Nat.zero_add]
  rfl

/-- Queues are numbered in the order in which subscriptions start. -/
theorem map_queue_tenures (ops : List BusOp) :
    (tenures ops).map Tenure.queue = List.range (tenures ops).length := by
  induction ops using List.reverseRecOn with
  | nil => rfl
  | append_singleton ops op ih =>
    have hqueue : Tenure.queue ∘ Tenure.extend op = Tenure.queue := rfl
    rw [tenures_concat, List.map_append, List.map_map, hqueue, ih]
    cases op <;> simp [BusOp.tenure?, Tenure.queue, List.range_succ]

/-- Two tenures with one queue are the same. -/
theorem eq_of_queue_eq {ops : List BusOp} {t u : Tenure} (ht : t ∈ tenures ops)
    (hu : u ∈ tenures ops) (h : t.queue = u.queue) : t = u := by
  have hnodup : ((tenures ops).map Tenure.queue).Nodup := map_queue_tenures ops ▸ List.nodup_range
  exact List.inj_on_of_nodup_map hnodup ht hu h

/-! ## The bus after a history -/

/-- The subscriptions of tenures that have not ended. -/
def inForceOf (ts : List Tenure) : List Subscription :=
  (ts.filter Tenure.inForce).map Tenure.subscription

theorem inForceOf_append (ts us : List Tenure) :
    inForceOf (ts ++ us) = inForceOf ts ++ inForceOf us := by
  simp [inForceOf]

/-- When one thing more has happened, those subscriptions are gone that it ends. -/
theorem inForceOf_extend (op : BusOp) (ts : List Tenure) :
    inForceOf (ts.map (Tenure.extend op))
      = (inForceOf ts).filter fun s => !op.ends s.subscriber := by
  have hsubscription : Tenure.subscription ∘ Tenure.extend op = Tenure.subscription := rfl
  rw [inForceOf, inForceOf, List.filter_map, List.map_map, hsubscription, List.filter_map,
    List.filter_filter]
  refine congrArg _ (List.filter_congr fun t _ => ?_)
  rw [Function.comp_apply, Function.comp_apply, Tenure.inForce_extend, Bool.and_comm]

/-- A signal that goes to some subscriptions stands once in each of their queues. -/
theorem getElem?_foldl_push {signal : Signal} {receivers : List Subscription}
    (h : (receivers.map (·.queue)).Nodup) (queues : List SignalQueue) (queue : Nat) :
    (receivers.foldl (fun queues s =>
        queues.modify s.queue fun q => { q with signals := q.signals ++ [signal] }) queues)[queue]?
      = queues[queue]?.map fun q =>
        if queue ∈ receivers.map (·.queue) then { q with signals := q.signals ++ [signal] }
        else q := by
  induction receivers generalizing queues with
  | nil => simp
  | cons s receivers ih =>
    obtain ⟨hnot, hrest⟩ := List.nodup_cons.mp h
    rw [List.foldl_cons, ih hrest, List.getElem?_modify, List.map_cons]
    by_cases heq : s.queue = queue
    · subst heq
      cases queues[s.queue]? <;> simp [hnot]
    · have hne : queue ≠ s.queue := fun e => heq e.symm
      cases queues[queue]? <;> simp [heq, hne]

/-- A delivery makes no queue and drops none. -/
theorem length_foldl_push (signal : Signal) (receivers : List Subscription)
    (queues : List SignalQueue) :
    (receivers.foldl (fun queues s =>
        queues.modify s.queue fun q => { q with signals := q.signals ++ [signal] }) queues).length
      = queues.length := by
  induction receivers generalizing queues with
  | nil => rfl
  | cons s receivers ih => rw [List.foldl_cons, ih, List.length_modify]

namespace Station

open SignalBus

variable {ops : List BusOp} {s next : Station}

/-- What a station is after a history: the subscriptions are those of the tenures
that have not ended, and what was drained from a queue and what waits in it is
what was due before the queue was closed. -/
structure Delivers (ops : List BusOp) (s : Station) : Prop where
  subscriptions_eq : s.bus.subscriptions = inForceOf (tenures ops)
  length_eq : s.bus.queues.length = (tenures ops).length
  drained_eq_nil : ∀ queue, (tenures ops).length ≤ queue → s.drained queue = []
  served : ∀ t ∈ tenures ops, ∃ signals, s.bus.queues[t.queue]? = some ⟨signals, t.isHeld⟩ ∧
    s.drained t.queue ++ signals = t.reached

theorem delivers_start : start.Delivers [] :=
  ⟨rfl, rfl, fun _ _ => rfl, fun _ h => absurd h List.not_mem_nil⟩

/-- A queue takes what goes to its subscription as long as it is open. -/
theorem Delivers.delivers_eq (h : s.Delivers ops) {t : Tenure} (ht : t ∈ tenures ops)
    (name : String) :
    s.bus.delivers name t.subscription = (t.subscription.accepts name && t.isHeld) := by
  obtain ⟨signals, hqueue, -⟩ := h.served t ht
  have hget : s.bus.queues[t.subscription.queue]? = some ⟨signals, t.isHeld⟩ := hqueue
  rw [delivers, hget]
  rfl

/-- The subscriptions that a signal goes to. -/
theorem Delivers.receivers_eq (h : s.Delivers ops) (name : String) :
    s.bus.subscriptions.filter (s.bus.delivers name)
      = ((tenures ops).filter fun t =>
        t.inForce && (t.subscription.accepts name && t.isHeld)).map Tenure.subscription := by
  rw [h.subscriptions_eq, inForceOf, List.filter_map, List.filter_filter]
  refine congrArg _ (List.filter_congr fun t ht => ?_)
  rw [Function.comp_apply, h.delivers_eq ht, Bool.and_comm]

/-- **A publication counts** the subscriptions in force that match and whose
queues are open. -/
theorem Delivers.count_eq (h : s.Delivers ops) (signal : Signal) :
    (s.bus.publish signal).1 = (tenures ops).countP fun t =>
      t.inForce && (t.subscription.accepts signal.name && t.isHeld) := by
  rw [publish, h.receivers_eq, List.length_map, List.countP_eq_length_filter]

/-- One thing more, if it does to the subscriptions and to each queue what it should. -/
theorem Delivers.concat (h : s.Delivers ops) {op : BusOp}
    (hsubscriptions : next.bus.subscriptions
      = (s.bus.subscriptions.filter fun s => !op.ends s.subscriber)
        ++ (op.tenure? s.bus.queues.length).toList.map Tenure.subscription)
    (hlength : next.bus.queues.length
      = s.bus.queues.length + (op.tenure? s.bus.queues.length).toList.length)
    (hdrained : ∀ queue, s.bus.queues.length ≤ queue → next.drained queue = s.drained queue)
    (hold : ∀ t ∈ tenures ops, ∀ signals, s.bus.queues[t.queue]? = some ⟨signals, t.isHeld⟩ →
      ∃ after, next.bus.queues[t.queue]? = some ⟨after, t.isHeld && !op.closes t.queue⟩ ∧
        next.drained t.queue ++ after = s.drained t.queue ++ signals ++
          if t.isHeld && t.inForce then t.subscription.brought op else [])
    (hnew : ∀ t ∈ op.tenure? s.bus.queues.length, next.bus.queues[t.queue]? = some ⟨[], true⟩) :
    next.Delivers (ops ++ [op]) where
  subscriptions_eq := by
    have hnewest : inForceOf (op.tenure? (tenures ops).length).toList
        = (op.tenure? (tenures ops).length).toList.map Tenure.subscription := by
      cases op <;> rfl
    rw [hsubscriptions, h.subscriptions_eq, h.length_eq, tenures_concat, inForceOf_append,
      inForceOf_extend, hnewest]
  length_eq := by
    rw [hlength, h.length_eq, tenures_concat, List.length_append, List.length_map]
  drained_eq_nil queue hqueue := by
    rw [tenures_concat, List.length_append, List.length_map] at hqueue
    rw [hdrained queue (by rw [h.length_eq]; omega)]
    exact h.drained_eq_nil queue (by omega)
  served t ht := by
    rw [tenures_concat, List.mem_append, Option.mem_toList] at ht
    rcases ht with ht | ht
    · obtain ⟨u, hu, rfl⟩ := List.mem_map.mp ht
      obtain ⟨signals, hqueue, hserved⟩ := h.served u hu
      obtain ⟨after, hafter, hsum⟩ := hold u hu signals hqueue
      rw [Tenure.queue_extend, Tenure.isHeld_extend, Tenure.reached_extend, ← hserved]
      exact ⟨after, hafter, hsum⟩
    · rw [← h.length_eq] at ht
      have hempty : t.isHeld = true ∧ t.reached = [] ∧ t.queue = s.bus.queues.length := by
        cases op <;> cases ht
        exact ⟨rfl, rfl, rfl⟩
      refine ⟨[], by rw [hnew t ht, hempty.1], ?_⟩
      rw [hempty.2.1, hempty.2.2, hdrained _ (Nat.le_refl _),
        h.drained_eq_nil _ (Nat.le_of_eq h.length_eq.symm)]
      rfl

/-! ## Each operation -/

theorem subscriptions_unsubscribe (bus : SignalBus) (subscriber : String) :
    (bus.unsubscribe subscriber).subscriptions
      = bus.subscriptions.filter fun s => !(BusOp.unsubscribe subscriber).ends s.subscriber := by
  refine List.filter_congr fun s _ => ?_
  rw [BusOp.ends, bne, Bool.beq_comm]

/-- A subscription keeps the deliveries, and begins a tenure with none due. -/
theorem Delivers.subscribe (h : s.Delivers ops) (subscriber : String) (patterns : List Pattern) :
    (s.step (.subscribe subscriber patterns)).Delivers
      (ops ++ [.subscribe subscriber patterns]) := by
  refine h.concat ?_ ?_ (fun _ _ => rfl) (fun t ht signals hqueue => ⟨signals, ?_, ?_⟩) ?_
  · have hends (r : Subscription) :
        (BusOp.subscribe subscriber patterns).ends r.subscriber
          = (BusOp.unsubscribe subscriber).ends r.subscriber := rfl
    simp [step, SignalBus.subscribe, subscriptions_unsubscribe, BusOp.tenure?, hends]
  · simp [step, SignalBus.subscribe, BusOp.tenure?]
  · have hlt : t.queue < s.bus.queues.length := (List.getElem?_eq_some_iff.mp hqueue).1
    have hcloses : (BusOp.subscribe subscriber patterns).closes t.queue = false := rfl
    rw [hcloses, Bool.not_false, Bool.and_true, ← hqueue]
    exact List.getElem?_append_left hlt
  · simp [step, Subscription.brought, BusOp.signal?]
  · rintro _ ⟨⟩
    simp [step, SignalBus.subscribe, Tenure.queue]

/-- The end of a subscription keeps the deliveries: nothing more is due. -/
theorem Delivers.unsubscribe (h : s.Delivers ops) (subscriber : String) :
    (s.step (.unsubscribe subscriber)).Delivers (ops ++ [.unsubscribe subscriber]) := by
  refine h.concat ?_ rfl (fun _ _ => rfl) (fun t ht signals hqueue => ⟨signals, ?_, ?_⟩)
    fun _ ht => (by cases ht)
  · simp [step, subscriptions_unsubscribe, BusOp.tenure?]
  · simpa [step, SignalBus.unsubscribe, BusOp.closes] using hqueue
  · simp [step, Subscription.brought, BusOp.signal?]

/-- A signal reaches every queue for which it is due. -/
theorem Delivers.publish (h : s.Delivers ops) (signal : Signal) :
    (s.step (.publish signal)).Delivers (ops ++ [.publish signal]) := by
  have hreceivers := h.receivers_eq signal.name
  have hnodup : ((s.bus.subscriptions.filter (s.bus.delivers signal.name)).map
      Subscription.queue).Nodup := by
    rw [hreceivers, List.map_map]
    have hall : ((tenures ops).map Tenure.queue).Nodup :=
      map_queue_tenures ops ▸ List.nodup_range
    exact hall.sublist (List.filter_sublist.map _)
  refine h.concat ?_ ?_ (fun _ _ => rfl) (fun t ht signals hqueue => ?_) fun _ ht => (by cases ht)
  · simp [step, SignalBus.publish, BusOp.ends, BusOp.tenure?]
  · exact length_foldl_push signal _ _
  · -- The queue of a tenure gets the signal if its subscription is among the receivers.
    have hmem : t.queue ∈ (s.bus.subscriptions.filter (s.bus.delivers signal.name)).map
        Subscription.queue ↔
          (t.inForce && (t.subscription.accepts signal.name && t.isHeld)) = true := by
      rw [hreceivers, List.map_map]
      constructor
      · intro hm
        obtain ⟨u, hu, hqueue⟩ := List.mem_map.mp hm
        obtain ⟨hu, hall⟩ := List.mem_filter.mp hu
        exact eq_of_queue_eq hu ht hqueue ▸ hall
      · exact fun hall => List.mem_map.mpr ⟨t, List.mem_filter.mpr ⟨ht, hall⟩, rfl⟩
    have hafter : (s.step (.publish signal)).bus.queues[t.queue]? = _ :=
      getElem?_foldl_push hnodup s.bus.queues t.queue
    rw [hafter, hqueue, Option.map_some]
    simp only [hmem, step, Subscription.brought, BusOp.signal?, BusOp.closes, Option.toList_some,
      List.filter_cons, List.filter_nil]
    cases t.inForce <;> cases t.isHeld <;> cases t.subscription.accepts signal.name <;> simp

/-- A queue that is dropped keeps the deliveries of all others. -/
theorem Delivers.close (h : s.Delivers ops) (queue : Nat) :
    (s.step (.close queue)).Delivers (ops ++ [.close queue]) := by
  refine h.concat ?_ ?_ (fun _ _ => rfl) (fun t ht signals hqueue => ⟨signals, ?_, ?_⟩)
    fun _ ht => (by cases ht)
  · simp [step, SignalBus.close, BusOp.ends, BusOp.tenure?]
  · simp [step, SignalBus.close, BusOp.tenure?]
  · by_cases heq : queue = t.queue <;>
      simp [step, SignalBus.close, hqueue, BusOp.closes, heq]
  · simp [step, Subscription.brought, BusOp.signal?]

/-- What is drained is the front of what was delivered. -/
theorem Delivers.drain (h : s.Delivers ops) (queue : Nat) :
    (s.step (.drain queue)).Delivers (ops ++ [.drain queue]) := by
  refine h.concat ?_ ?_ (fun other hother => ?_) (fun t ht signals hqueue => ?_)
    fun _ ht => (by cases ht)
  · simp [step, SignalBus.drain, BusOp.ends, BusOp.tenure?]
  · simp [step, SignalBus.drain, BusOp.tenure?]
  · by_cases heq : other = queue
    · subst heq
      simp [step, SignalBus.drain, List.getElem?_eq_none hother]
    · simp [step, heq]
  · have hbrought : t.subscription.brought (.drain queue) = [] := rfl
    by_cases heq : queue = t.queue
    · subst heq
      refine ⟨[], ?_, ?_⟩ <;>
        simp [step, SignalBus.drain, hqueue, BusOp.closes, hbrought]
    · have hne : t.queue ≠ queue := fun e => heq e.symm
      refine ⟨signals, ?_, ?_⟩ <;>
        simp [step, SignalBus.drain, hqueue, BusOp.closes, hbrought, heq, hne]

/-- **A step delivers** what it should. -/
theorem Delivers.step (h : s.Delivers ops) (op : BusOp) : (s.step op).Delivers (ops ++ [op]) := by
  cases op with
  | subscribe subscriber patterns => exact h.subscribe subscriber patterns
  | unsubscribe subscriber => exact h.unsubscribe subscriber
  | publish signal => exact h.publish signal
  | close queue => exact h.close queue
  | drain queue => exact h.drain queue

/-- Every run keeps the deliveries. -/
theorem delivers_run (ops : List BusOp) : (run ops).Delivers ops := by
  induction ops using List.reverseRecOn with
  | nil => exact delivers_start
  | append_singleton ops op ih =>
    rw [run_concat]
    exact ih.step op

/-! ## Subscribers -/

/-- Whoever subscribes is subscribed, and stays so until he unsubscribes. -/
theorem isSubscribed_concat {op : BusOp} {subscriber : String} :
    IsSubscribed (ops ++ [op]) subscriber ↔
      (∃ patterns, op = .subscribe subscriber patterns) ∨
        op ≠ .unsubscribe subscriber ∧ IsSubscribed ops subscriber := by
  constructor
  · rintro ⟨before, patterns, after, heq, hafter⟩
    rcases after.eq_nil_or_concat' with rfl | ⟨front, last, rfl⟩
    · obtain ⟨-, hop⟩ := List.append_inj' heq rfl
      exact .inl ⟨patterns, (List.cons.inj hop).1⟩
    · rw [← List.cons_append, ← List.append_assoc] at heq
      obtain ⟨hops, hop⟩ := List.append_inj' heq rfl
      rw [List.mem_append, List.mem_singleton, not_or] at hafter
      refine .inr ⟨?_, before, patterns, front, hops, hafter.1⟩
      rw [(List.cons.inj hop).1]
      exact fun h => hafter.2 h.symm
  · rintro (⟨patterns, rfl⟩ | ⟨hop, before, patterns, after, rfl, hafter⟩)
    · exact ⟨ops, patterns, [], rfl, List.not_mem_nil⟩
    · refine ⟨before, patterns, after ++ [op], by simp, ?_⟩
      rw [List.mem_append, List.mem_singleton, not_or]
      exact ⟨hafter, fun h => hop h.symm⟩

/-- Subscribers that are left when one unsubscribes. -/
theorem map_subscriber_filter (subscriptions : List Subscription) (subscriber : String) :
    (subscriptions.filter (·.subscriber != subscriber)).map (·.subscriber)
      = (subscriptions.map (·.subscriber)).filter (· != subscriber) := by
  rw [List.filter_map]
  rfl

/-- Every subscriber has one subscription. -/
theorem nodup_subscribers (ops : List BusOp) :
    ((run ops).bus.subscriptions.map (·.subscriber)).Nodup := by
  induction ops using List.reverseRecOn with
  | nil => exact List.nodup_nil
  | append_singleton ops op ih =>
    rw [run_concat]
    cases op with
    | subscribe subscriber patterns =>
      simp only [step, SignalBus.subscribe, SignalBus.unsubscribe, List.map_append,
        map_subscriber_filter, List.map_cons, List.map_nil]
      refine List.nodup_append.mpr ⟨ih.filter _, List.nodup_singleton _, ?_⟩
      intro name hname other hother
      rw [List.mem_singleton.mp hother]
      simpa using (List.mem_filter.mp hname).2
    | unsubscribe subscriber =>
      simp only [step, SignalBus.unsubscribe, map_subscriber_filter]
      exact ih.filter _
    | publish | close | drain => exact ih

/-- The bus knows who is subscribed. -/
theorem mem_subscribers {subscriber : String} :
    subscriber ∈ (run ops).bus.subscriptions.map (·.subscriber)
      ↔ IsSubscribed ops subscriber := by
  induction ops using List.reverseRecOn with
  | nil =>
    refine ⟨fun h => absurd h List.not_mem_nil, fun ⟨before, _, _, h, _⟩ => ?_⟩
    simp at h
  | append_singleton ops op ih =>
    rw [run_concat, isSubscribed_concat, ← ih]
    cases op with
    | subscribe other patterns =>
      simp only [step, SignalBus.subscribe, SignalBus.unsubscribe, List.map_append,
        map_subscriber_filter, List.map_cons, List.map_nil]
      rcases eq_or_ne subscriber other with rfl | hne
      · simp
      · simp [hne, hne.symm]
    | unsubscribe other =>
      simp only [step, SignalBus.unsubscribe, map_subscriber_filter]
      rcases eq_or_ne subscriber other with rfl | hne
      · simp
      · simp [hne, hne.symm]
    | publish | close | drain => simp [step, SignalBus.publish, SignalBus.close, SignalBus.drain]

/-- **A bus delivers each signal once and in order.**  What was drained from the
queue of a subscription and what waits in it are just the signals that were
published while the subscription was in force and whose names one of its patterns
matches; if the queue was closed, what was drained is a front part of them.  A
publication counts the subscriptions in force that match and whose queues are
open.  The subscribers are those who subscribed and did not unsubscribe since. -/
theorem delivers_once_in_order (ops : List BusOp) :
    let station := run ops
    (∀ subscriber patterns,
      (station.bus.subscribe subscriber patterns).1 = (tenures ops).length) ∧
    (∀ t ∈ tenures ops, station.drained t.queue <+: t.due ∧
      (t.isHeld = true →
        station.drained t.queue ++ (station.bus.drain t.queue).1 = t.due)) ∧
    (∀ signal, (station.bus.publish signal).1 = (tenures ops).countP fun t =>
      t.inForce && (t.subscription.accepts signal.name && t.isHeld)) ∧
    station.bus.subscribers.Nodup ∧
    (∀ subscriber, subscriber ∈ station.bus.subscribers ↔ IsSubscribed ops subscriber) ∧
    station.bus.size = station.bus.subscribers.length := by
  have h := delivers_run ops
  refine ⟨fun _ _ => h.length_eq, fun t ht => ?_, fun signal => h.count_eq signal, ?_,
    fun subscriber => ?_, ?_⟩
  · obtain ⟨signals, hqueue, hserved⟩ := h.served t ht
    have hdrain : ((run ops).bus.drain t.queue).1 = signals := by
      rw [SignalBus.drain, hqueue]
      rfl
    refine ⟨(List.prefix_append _ signals).trans (hserved ▸ t.reached_prefix), fun hheld => ?_⟩
    rw [hdrain, hserved, Tenure.reached_of_isHeld hheld]
  · exact (List.mergeSort_perm _ _).nodup_iff.mpr (nodup_subscribers ops)
  · rw [subscribers, List.mem_mergeSort, mem_subscribers]
  · rw [subscribers, List.length_mergeSort, List.length_map, SignalBus.size]

/-- A subscription with two patterns that match is replaced, and the queue of the
new one is closed. -/
theorem delivers_once_in_order_when_replaced :
    let signal (path : String) : Signal := ⟨":1.4", path, "xyz.Watchdog", "Timeout", []⟩
    let ops : List BusOp := [.subscribe "seld" [⟨"*"⟩, ⟨"Timeout:*"⟩], .publish (signal "/a"),
      .drain 0, .publish (signal "/b"), .subscribe "seld" [⟨"**"⟩], .publish (signal "/c"),
      .close 1, .publish (signal "/d")]
    ∃ t u, tenures ops = [t, u] ∧ t.isHeld = true ∧ u.isHeld = false ∧
      (run ops).drained 0 ++ ((run ops).bus.drain 0).1 = [signal "/a", signal "/b"] ∧
      (run ops).drained 1 <+: [signal "/c", signal "/d"] := by
  intro signal ops
  obtain ⟨-, hserved, -⟩ := delivers_once_in_order ops
  have hall : (run ops).drained 0 ++ ((run ops).bus.drain 0).1 = _ :=
    (hserved _ (.head _)).2 rfl
  have hfront : (run ops).drained 1 <+: _ := (hserved _ (.tail _ (.head _))).1
  exact ⟨_, _, rfl, rfl, rfl, hall, hfront⟩

end Station

end EventLog
