import EventLog.Signal.Pattern

/-!
# EventLog.Signal.Bus

Routing of signals.  A subscriber gives a list of patterns and gets a queue;
a published signal goes into the queue of every subscription with a pattern
that matches its name, unless the queue was closed.  A subscriber has one
subscription: a new one takes the place of the old one.  The queue of a
subscription that ended stays readable, and nothing more goes into it.
-/

namespace EventLog

/-- A queue of signals; it is closed when nobody reads it any more. -/
structure SignalQueue where
  signals : List Signal
  isOpen : Bool

/-- A subscription: whose it is, its patterns, and the number of its queue. -/
structure Subscription where
  subscriber : String
  patterns : List Pattern
  queue : Nat
  deriving DecidableEq

/-- The subscriptions in force, and all queues ever made. -/
structure SignalBus where
  subscriptions : List Subscription
  queues : List SignalQueue

/-- Whether one of the patterns matches a name. -/
def Subscription.accepts (s : Subscription) (name : String) : Bool :=
  s.patterns.any (·.accepts name)

namespace SignalBus

/-- The bus without subscriptions. -/
def empty : SignalBus := ⟨[], []⟩

/-- Ends the subscription of a subscriber. -/
def unsubscribe (bus : SignalBus) (subscriber : String) : SignalBus :=
  { bus with subscriptions := bus.subscriptions.filter (·.subscriber != subscriber) }

/-- Starts a subscription; the number of its queue comes with it. -/
def subscribe (bus : SignalBus) (subscriber : String) (patterns : List Pattern) :
    Nat × SignalBus :=
  let queue := bus.queues.length
  (queue,
    { subscriptions := (bus.unsubscribe subscriber).subscriptions ++ [⟨subscriber, patterns, queue⟩]
      queues := bus.queues ++ [⟨[], true⟩] })

/-- Whether a signal of the given name goes into the queue of a subscription. -/
def delivers (bus : SignalBus) (name : String) (s : Subscription) : Bool :=
  s.accepts name && (bus.queues[s.queue]?.map SignalQueue.isOpen).getD false

/-- Puts a signal into the queues that it goes to, and counts them. -/
def publish (bus : SignalBus) (signal : Signal) : Nat × SignalBus :=
  let receivers := bus.subscriptions.filter (bus.delivers signal.name)
  let push (queues : List SignalQueue) (s : Subscription) : List SignalQueue :=
    queues.modify s.queue fun q => { q with signals := q.signals ++ [signal] }
  (receivers.length, { bus with queues := receivers.foldl push bus.queues })

/-- Closes a queue; its subscription stays. -/
def close (bus : SignalBus) (queue : Nat) : SignalBus :=
  { bus with queues := bus.queues.modify queue fun q => { q with isOpen := false } }

def drain (bus : SignalBus) (queue : Nat) : List Signal × SignalBus :=
  ((bus.queues[queue]?.map SignalQueue.signals).getD [],
    { bus with queues := bus.queues.modify queue fun q => { q with signals := [] } })

def size (bus : SignalBus) : Nat := bus.subscriptions.length

def subscribers (bus : SignalBus) : List String :=
  (bus.subscriptions.map (·.subscriber)).mergeSort (· ≤ ·)

end SignalBus

end EventLog
