import EventLog.Daemon.Serve
import EventLog.Proofs.Daemon.Start
import EventLog.Proofs.Monitor.Relay
import EventLog.Proofs.Pipeline

/-!
# EventLog.Proofs.Daemon.Reach

The states of a daemon, whatever it is asked and whatever others do with the disk.

* `Reachable`: a daemon was started, and then carried out requests;
* `Sound`: it has the monitors and the store of its configuration, and no signal waits;
* `Sound.handle`: every request keeps it so, and so it is in every state
  (`Reachable.sound`);
* `publish_eq`: a signal that is published is shown to the monitors, and no other.
-/

namespace EventLog

/-- Where and how records are stored, if they are. -/
def Config.store? (config : Config) : Option StoreConfig :=
  match config.sink with
  | .journal _ => some config.store
  | .service _ => none

namespace Daemon

open Pipeline Step

/-- The states of a daemon: it was started, it carries out requests, and at any
time others may change the disk. -/
inductive Reachable (config : Config) : Daemon → Prop where
  | started {process : Nat} {held : List Nat} {before disk : Disk} {d : Daemon}
      (h : Daemon.start config process held before = (.ok d, disk)) : Reachable config d
  | handled {d : Daemon} (h : Reachable config d) (outside : Outside) (request : Request) :
      Reachable config (d.handle outside request).2
  | elsewhere {d : Daemon} (h : Reachable config d) (disk : Disk) :
      Reachable config (d.withDisk disk)

/-- A daemon as its configuration has it, with no signal that waits for the monitors. -/
structure Sound (config : Config) (d : Daemon) : Prop where
  config_eq : d.config = config
  monitors_eq : d.monitors.config = config.monitors
  bus_eq : d.bus = SignalBus.tended d.monitors []
  queue_eq : d.queue = 0
  hasStore : d.pipeline.HasStore config.store?

variable {config : Config} {d : Daemon}

/-! ## Starting -/

/-- A start opens the log of its configuration, if there is one. -/
theorem openStore_ok {store : Option Store} {disk next : Disk}
    (h : (openStore config).run disk = (.ok store, next)) (after : Disk) :
    Pipeline.HasStore config.store? ⟨store, after, []⟩ := by
  rw [run_openStore] at h
  rw [Config.store?]
  cases hsink : config.sink with
  | service url =>
    rw [hsink] at h
    cases h
    rfl
  | journal unit =>
    rw [hsink] at h
    rcases hopen : (Store.open config.store).run disk with ⟨e | opened, last⟩ <;>
      rw [hopen] at h <;> cases h
    exact ⟨opened, rfl, Store.isOf_open hopen⟩

theorem fresh_sound {store : Option Store} {disk : Disk} (lock : Nat)
    (h : Pipeline.HasStore config.store? ⟨store, disk, []⟩) :
    (fresh config lock store disk).Sound config :=
  ⟨rfl, rfl, rfl, rfl, h⟩

/-- A daemon that has started is as its configuration has it. -/
theorem sound_of_start {process : Nat} {held : List Nat} {before disk : Disk}
    (h : Daemon.start config process held before = (.ok d, disk)) : d.Sound config := by
  obtain ⟨lock, _, -, -, hsteps⟩ := startSteps_eq_ok.mp (start_eq_ok.mp h)
  obtain ⟨_, _, _, -, hstore, -, rfl⟩ := lockedSteps_eq_ok.mp hsteps
  exact fresh_sound lock (openStore_ok hstore _)

/-! ## At work -/

/-- A report runs the pipeline, and its answer tells the number of a record that was stored. -/
theorem report_eq (outside : Outside) (d : Daemon) (notice : Notice) :
    d.report outside notice =
      let answered := d.run (submit (d.surroundings outside) notice)
      (match answered.1 with
        | .ok (some id) => if id = .unassigned then none else some id
        | _ => none, answered.2) := by
  rw [report]
  rcases d.run (submit (d.surroundings outside) notice) with ⟨_ | _ | id, next⟩ <;> rfl

namespace Sound

theorem withPipeline (h : d.Sound config) {pipeline : Pipeline}
    (hstore : pipeline.HasStore config.store?) : ({ d with pipeline } : Daemon).Sound config :=
  ⟨h.config_eq, h.monitors_eq, h.bus_eq, h.queue_eq, hstore⟩

theorem run {α : Type} (h : d.Sound config) {step : PipelineM α}
    (hstep : Keeps (HasStore config.store?) step) : (d.run step).2.Sound config :=
  h.withPipeline (hstep d.pipeline h.hasStore)

/-- A change of the monitors alone leaves the daemon as its configuration has it. -/
theorem withMonitors (h : d.Sound config) {monitors : Monitors}
    (hconfig : monitors.config = d.monitors.config) :
    ({ d with monitors } : Daemon).Sound config :=
  ⟨h.config_eq, hconfig.trans h.monitors_eq,
    h.bus_eq.trans (SignalBus.tended_eq_of_config_eq hconfig []).symm, h.queue_eq, h.hasStore⟩

/-- A report of a notice leaves the daemon as its configuration has it. -/
theorem report (h : d.Sound config) (outside : Outside) (notice : Notice) :
    (d.report outside notice).2.Sound config := by
  rw [report_eq]
  exact h.run (keeps_submit (d.surroundings outside) notice)

theorem reportAll (h : d.Sound config) (outside : Outside) (notices : List Notice) :
    (d.reportAll outside notices).2.Sound config := by
  induction notices generalizing d with
  | nil => exact h
  | cons notice rest ih => exact ih (h.report outside notice)

theorem observe (h : d.Sound config) (outside : Outside) (signal : Signal) :
    (d.observe outside signal).2.Sound config :=
  (h.withMonitors (Monitors.config_dispatch ..)).reportAll outside _

/-- **A signal that is published is shown to the monitors, and no other.** -/
theorem publish_eq (h : d.Sound config) (outside : Outside) (signal : Signal) :
    d.publish outside signal =
      (.published (if d.monitors.looksAt signal then 1 else 0) (d.observe outside signal).1,
        (d.observe outside signal).2) := by
  have hbus : ({ d with bus := SignalBus.tended d.monitors [] } : Daemon) = d := by
    rw [← h.bus_eq]
  rw [publish, h.bus_eq, SignalBus.publish_tended, h.queue_eq]
  simp only [SignalBus.drain_tended, List.nil_append]
  rw [← h.queue_eq, hbus]
  cases hlooks : d.monitors.looksAt signal with
  | true =>
    rw [List.filter_cons_of_pos hlooks, List.filter_nil]
    simp only [observeAll, List.append_nil, if_true]
  | false =>
    rw [List.filter_cons_of_neg (by simp [hlooks]), List.filter_nil, Daemon.observe,
      Monitors.dispatch_of_not_looksAt hlooks]
    rfl

/-- **Every request keeps a daemon as its configuration has it.** -/
theorem handle (h : d.Sound config) (outside : Outside) (request : Request) :
    (d.handle outside request).2.Sound config := by
  cases request with
  | add => exact h.run (keeps_addSystem _ _ _ _ _ _)
  | addOem => exact h.run (keeps_addOem _ _ _ _)
  | clear => exact h.run (keeps_clear _)
  | delete id => exact h.run (keeps_delete id)
  | info => exact h.run (keeps_reading "info" Store.info)
  | entries => exact h.run (keeps_reading "entries" Store.entries)
  | publish signal =>
    rw [Daemon.handle, h.publish_eq]
    exact h.observe outside signal
  | ping | hello | status => exact h
  | setProperties | setReply | shutdown =>
    exact ⟨h.config_eq, h.monitors_eq, h.bus_eq, h.queue_eq, h.hasStore⟩

end Sound

/-- In every state the daemon is as its configuration has it. -/
theorem Reachable.sound (h : d.Reachable config) : d.Sound config := by
  induction h with
  | started h => exact sound_of_start h
  | handled _ outside request ih => exact ih.handle outside request
  | elsewhere _ disk ih => exact ih.withPipeline (ih.hasStore.of_store_eq rfl)

end Daemon

end EventLog
