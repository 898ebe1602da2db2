import EventLog.Proofs.Daemon.Reach
import EventLog.Proofs.Monitor.Raised

/-!
# EventLog.Proofs.Daemon.Publish

What is stored when a signal is published.

* `run_submit_raised`: a record that was raised passes every check, and gets the
  next number of the store;
* `observe_stores`: the log grows by the records that the monitors emit, and the
  numbers that come back are theirs;
* `publish_stores_emitted`: so the entries that a client gets are those before,
  and one for each number in the response.
-/

namespace EventLog

open Step

/-- The record that a notice is, if it is one. -/
def Notice.record? : Notice → Option Record
  | record made => some made
  | informational .. => none

/-- An entry as it is stored of a record that was raised of a signal. -/
structure Entry.Tells (signal : Signal) (made : Record) (entry : Entry) : Prop where
  recordType_eq : entry.recordType = 2
  length_eq : entry.data.length = 3
  data_eq : entry.data = made.data
  generator_eq : entry.generator = some 0x0020
  sensor_eq : entry.sensor = if signal.path = "" then none else some signal.path
  assert_eq : ∃ assert, made.assert? = some assert ∧ entry.assert = some assert

/-- A record that was raised is stored as an entry that tells of its signal. -/
theorem Entry.tells_of_raises {signal : Signal} {made : Record}
    (h : (Notice.record made).Raises signal.path) (time : Timestamp) (id : RecordId) :
    (made.entry time id).Tells signal made := by
  obtain ⟨assert, data, hlength, hraised⟩ := h
  rw [hraised.entry_eq]
  exact ⟨rfl, hlength, hraised.data_eq.symm, rfl, rfl, assert, hraised.tells.assert_eq, rfl⟩

namespace Pipeline

/-- A notice that is a record goes the way of records. -/
theorem run_submit_record (around : Surroundings) (made : Record) (p : Pipeline) :
    (submit around (.record made)).run p =
      (((record around made).run p).1.map some, ((record around made).run p).2) := by
  rw [submit, map_eq_pure_bind, run_bind]
  rcases (record around made).run p with ⟨_ | _, next⟩ <;> rfl

/-- A record that was raised gets the next number of the store. -/
theorem run_submit_raised {source : String} {made : Record}
    (h : (Notice.record made).Raises source) (around : Surroundings) {p : Pipeline} {store : Store}
    (hstore : p.store = some store) :
    (submit around (.record made)).run p =
      let id := store.allocator.allocate.1
      (.ok (some id),
        ⟨some { store with allocator := store.allocator.allocate.2 },
          ((store.config.writeLine (Line.format around.now id made)).run p.disk).2,
          p.calls ++ [.emit (.record id made)]⟩) := by
  obtain ⟨_, _, -, hraised⟩ := h
  rw [run_submit_record, run_record, hstore, hraised.checkRecord]
  rfl

/-- The pipeline never refuses a record that was raised. -/
theorem run_submit_raised_ne {source : String} {made : Record}
    (h : (Notice.record made).Raises source) (around : Surroundings) (p : Pipeline)
    (e : RecordError) : ((submit around (.record made)).run p).1 ≠ .error (.eventData e) := by
  cases hstore : p.store with
  | some store =>
    rw [run_submit_raised h around hstore]
    exact fun h => by cases h
  | none =>
    rw [run_submit_record, run_record, hstore]
    cases around.emit (.record .unassigned made) <;> exact fun h => by cases h

end Pipeline

namespace Daemon

variable {config : Config} {d : Daemon} {store : Store} {before : List Entry}

def logWith (d : Daemon) (store : Store) : Log := ⟨store, d.disk⟩

/-- The daemon answers with the entries of its log, if they can be read. -/
theorem handle_entries_eq (hstore : d.pipeline.store = some store) (outside : Outside) :
    (d.handle outside .entries).1 = .entries before ↔
      (d.logWith store).entries = .ok before := by
  have hrun : (Pipeline.entries.run d.pipeline).1 =
      match (d.logWith store).entries with
      | .ok entries => .ok entries
      | .error e => .error (.storage e) := by
    rw [Pipeline.entries, run_bind, Pipeline.run_storeFor, hstore]
    have hlog : (store.entries.run d.pipeline.disk).1 = (d.logWith store).entries := rfl
    simp only [Pipeline.run_reading, hlog]
    cases (d.logWith store).entries <;> rfl
  have hanswer : (d.handle outside .entries).1
      = Response.ofResult .entries (Pipeline.entries.run d.pipeline).1 := rfl
  rw [hanswer, hrun]
  cases (d.logWith store).entries with
  | error e => exact ⟨fun h => (by cases h), fun h => (by cases h)⟩
  | ok entries => exact ⟨fun h => (by cases h; rfl), fun h => (by cases h; rfl)⟩

/-- A daemon that stores records in one file, which ends its last line, and whose disk gives
no trouble.  The prefix of its log is a plain file name: if there is a slash in it, the
active file is not one of those that are read as the log. -/
structure Storing (config : Config) (d : Daemon) : Prop where
  journal : ∃ unit, config.sink = .journal unit
  unlimited : config.maxFileBytes = 0
  word : config.maxFiles < Text.wordLimit
  name : IsFileName config.logName
  fits : config.logName.utf8ByteSize ≤ Disk.nameLimit
  directory : ∃ names, d.disk.list config.logDirectory = .ok names ∧ names.Nodup
  ended : ∀ text, d.disk.readText config.store.activeFile = .ok text → IsEnded text.toList

/-- A daemon that writes to the journal has a log. -/
theorem Sound.exists_store (h : d.Sound config) {unit : Option String}
    (hjournal : config.sink = .journal unit) :
    ∃ store, d.pipeline.store = some store ∧ store.IsOf config.store := by
  have hhas := h.hasStore
  rwa [Config.store?, hjournal] at hhas

/-- Such a daemon has a store, and the next line of its log begins a line of its own. -/
theorem Storing.ready (h : d.Storing config) (hsound : d.Sound config) (outside : Outside)
    (hbefore : (d.handle outside .entries).1 = .entries before) :
    ∃ store lines, d.pipeline.store = some store ∧ store.IsOf config.store ∧
      (d.logWith store).Ready lines ∧ before = entriesOf lines := by
  obtain ⟨unit, hjournal⟩ := h.journal
  obtain ⟨store, hstore, hof⟩ := hsound.exists_store hjournal
  obtain ⟨lines, _, hlines, hentries⟩ :=
    Log.lines_of_entries ((handle_entries_eq hstore outside).mp hbefore)
  obtain ⟨_, allocator⟩ := store
  obtain rfl : _ = config.store := hof.config_eq
  exact ⟨_, lines, hstore, hof,
    ⟨h.name, h.word, h.directory, congrArg Prod.fst hlines, h.ended⟩, hentries⟩

theorem reportAll_singleton (outside : Outside) (d : Daemon) (notice : Notice) :
    d.reportAll outside [notice]
      = ((d.report outside notice).1.toList, (d.report outside notice).2) := by
  simp only [reportAll, List.append_nil]

/-- What is no record brings no number, and leaves the log alone. -/
theorem report_informational (outside : Outside) (d : Daemon) (message : String)
    (metadata : List (String × String)) :
    (d.report outside (.informational message metadata)).1 = none ∧
      (d.report outside (.informational message metadata)).2.pipeline.store = d.pipeline.store ∧
      (d.report outside (.informational message metadata)).2.disk = d.disk := by
  rw [report_eq, Daemon.run, Pipeline.submit, run_bind, Pipeline.run_emit]
  dsimp only
  cases (d.surroundings outside).emit (.informational message metadata) <;> exact ⟨rfl, rfl, rfl⟩

/-- A record that was raised is reported with the next number of the store. -/
theorem report_raised {source : String} {made : Record} (h : (Notice.record made).Raises source)
    (hstore : d.pipeline.store = some store) (hof : store.IsOf config.store) (outside : Outside) :
    let id := store.allocator.allocate.1
    let answered := d.report outside (.record made)
    answered.1 = some id ∧
      answered.2.pipeline.store = some { store with allocator := store.allocator.allocate.2 } ∧
      answered.2.disk
        = ((store.config.writeLine (Line.format outside.now id made)).run d.disk).2 := by
  have hvalid := hof.proper.allocate.1
  rw [report_eq, Daemon.run, Pipeline.run_submit_raised h _ hstore]
  exact ⟨if_neg hvalid.1, rfl, rfl⟩

/-- What is reported has a number for each record at most. -/
theorem length_reportAll_le (outside : Outside) (d : Daemon) (notices : List Notice) :
    (d.reportAll outside notices).1.length ≤ notices.length := by
  induction notices generalizing d with
  | nil => exact Nat.le_refl 0
  | cons notice rest ih =>
    have hrest := ih (d.report outside notice).2
    have hfirst := Option.length_toList_le (o := (d.report outside notice).1)
    rw [reportAll, List.length_append, List.length_cons]
    omega

/-- Of a signal one record is stored at most. -/
theorem length_observe_le (outside : Outside) (d : Daemon) (signal : Signal) :
    (d.observe outside signal).1.length ≤ 1 :=
  (length_reportAll_le ..).trans (Monitors.length_notices_dispatch_le ..)

/-- With a log there is a number for each record that was raised. -/
theorem length_reportAll {source : String} (hstore : d.pipeline.store = some store)
    (hof : store.IsOf config.store) (outside : Outside) {notices : List Notice}
    (hraises : ∀ notice ∈ notices, notice.Raises source) :
    (d.reportAll outside notices).1.length = (notices.filterMap Notice.record?).length := by
  induction notices generalizing d store with
  | nil => rfl
  | cons notice rest ih =>
    obtain ⟨hfirst, hrest⟩ := List.forall_mem_cons.mp hraises
    rw [reportAll, List.length_append]
    cases notice with
    | informational message metadata =>
      obtain ⟨hnone, hstore', -⟩ := report_informational outside d message metadata
      rw [hnone, ih (hstore'.trans hstore) hof hrest]
      exact Nat.zero_add _
    | record made =>
      obtain ⟨hid, hstore', -⟩ := report_raised hfirst hstore hof outside
      rw [hid, ih hstore' ⟨hof.config_eq, hof.proper.allocate.2⟩ hrest]
      exact Nat.add_comm 1 _

/-- The monitors see a signal, and what they have to say of it is reported. -/
theorem observe_eq (outside : Outside) (d : Daemon) (signal : Signal) :
    d.observe outside signal =
      reportAll outside
        { d with monitors := (d.monitors.dispatch d.registry.peers signal).monitors }
        (d.monitors.dispatch d.registry.peers signal).notices := rfl

/-- **What is stored of a signal**: the records that the monitors emit, with the
numbers that come back. -/
theorem observe_stores {lines : List (List Char)} (hstore : d.pipeline.store = some store)
    (hof : store.IsOf config.store) (hunlimited : config.maxFileBytes = 0)
    (hfits : config.logName.utf8ByteSize ≤ Disk.nameLimit) (hready : (d.logWith store).Ready lines)
    {outside : Outside} (hyear : 0 ≤ outside.now.date.year ∧ outside.now.date.year ≤ 9999)
    (signal : Signal) :
    let notices := (d.monitors.dispatch d.registry.peers signal).notices
    ∃ ids next store' added, d.observe outside signal = (ids, next) ∧
      next.pipeline.store = some store' ∧
      (next.logWith store').entries = .ok (entriesOf lines ++ added) ∧
      added.map (·.id) = ids ∧
      List.Forall₂ (Entry.Tells signal) (notices.filterMap Notice.record?) added := by
  intro notices
  have hraises : ∀ notice ∈ notices, notice.Raises signal.path :=
    fun _ h => Monitors.raises_of_mem_notices h
  have hsingle : notices.length ≤ 1 := Monitors.length_notices_dispatch_le ..
  have hunchanged : (d.logWith store).entries = .ok (entriesOf lines ++ []) := by
    rw [hready.entries_eq, List.append_nil]
  have hobserve : d.observe outside signal = reportAll outside
    { d with monitors := (d.monitors.dispatch d.registry.peers signal).monitors } notices :=
    observe_eq outside d signal
  rw [hobserve]
  generalize (d.monitors.dispatch d.registry.peers signal).monitors = monitors
  match notices, hraises, hsingle with
  | [], _, _ => exact ⟨[], _, store, [], rfl, hstore, hunchanged, rfl, .nil⟩
  | [.informational message metadata], _, _ =>
    obtain ⟨hnone, hstore', hdisk⟩ :=
      report_informational outside { d with monitors } message metadata
    refine ⟨[], _, store, [], ?_, hstore'.trans hstore, ?_, rfl, .nil⟩
    · rw [reportAll_singleton, hnone]
      rfl
    · rw [logWith, hdisk]
      exact hunchanged
  | [.record made], hraises, _ =>
    have hmade := hraises _ List.mem_cons_self
    obtain ⟨_, _, -, hraised⟩ := id hmade
    have hconfig : (d.logWith store).store.config = config.store := hof.config_eq
    have hroom : (d.logWith store).HasRoom := fun _ _ => .inl (by rw [hconfig]; exact hunlimited)
    obtain ⟨disk, hwrite⟩ := hready.exists_write hroom (by rw [hconfig]; exact hfits)
      (Line.format outside.now store.allocator.allocate.1 made)
    have hadded := hready.entries_of_write hroom hyear hraised.hasSensorPath hwrite
      store.allocator.allocate.2
    obtain ⟨hid, hstore', hdisk⟩ :=
      report_raised (d := { d with monitors }) hmade hstore hof outside
    refine ⟨[store.allocator.allocate.1], _, _, [made.entry outside.now store.allocator.allocate.1],
      ?_, hstore', ?_, ?_, .cons (Entry.tells_of_raises hmade _ _) .nil⟩
    · rw [reportAll_singleton, hid]
      rfl
    · rw [logWith, hdisk]
      exact (congrArg Prod.snd hwrite : _ = disk) ▸ hadded
    · rw [List.map_singleton, hraised.entry_eq]

/-- **What is stored of a signal that is published is what the monitors emit.**
No signal waits before a request or behind it, so what comes of one signal is
never taken for another's; and no record of a monitor is refused on its way.  The
response has one number at most, and one for each record that was emitted if the
daemon has a log.  If its disk gives no trouble, and the prefix of the log is a plain
file name (`Storing`), the entries behind the request are those before it and one for
each number, and each is that of a record that was emitted. -/
theorem publish_stores_emitted (hd : d.Reachable config) :
    ((d.bus.drain d.queue).1 = [] ∧
      ∀ outside request, (((d.handle outside request).2.bus.drain
        (d.handle outside request).2.queue)).1 = []) ∧
    (∀ (m : Monitors) (peers : Peers) (signal : Signal) (made : Record),
      .record made ∈ (m.dispatch peers signal).notices → ∀ around p e,
        ((Pipeline.submit around (.record made)).run p).1 ≠ .error (.eventData e)) ∧
    ∀ (outside : Outside) (signal : Signal),
      let made := (d.monitors.dispatch d.registry.peers signal).notices.filterMap Notice.record?
      ∃ ids next,
        d.handle outside (.publish signal)
          = (.published (if d.monitors.looksAt signal then 1 else 0) ids, next) ∧
        ids.length ≤ 1 ∧
        ((∃ unit, config.sink = .journal unit) → ids.length = made.length) ∧
        ∀ before, d.Storing config →
          0 ≤ outside.now.date.year ∧ outside.now.date.year ≤ 9999 →
          (d.handle outside .entries).1 = .entries before →
          ∃ added, (∀ later, (next.handle later .entries).1 = .entries (before ++ added)) ∧
            added.map (·.id) = ids ∧ List.Forall₂ (Entry.Tells signal) made added := by
  have hsound := hd.sound
  have hidle {d : Daemon} (h : d.Sound config) : (d.bus.drain d.queue).1 = [] := by
    rw [h.bus_eq, h.queue_eq, SignalBus.drain_tended]
  refine ⟨⟨hidle hsound, fun outside request => hidle (hsound.handle outside request)⟩,
    fun m peers signal made hmade around p e =>
      Pipeline.run_submit_raised_ne (Monitors.raises_of_mem_notices hmade) around p e,
    fun outside signal => ⟨(d.observe outside signal).1, (d.observe outside signal).2, ?_,
      length_observe_le outside d signal, fun ⟨unit, hjournal⟩ => ?_,
      fun before hstoring hyear hbefore => ?_⟩⟩
  · rw [handle, hsound.publish_eq]
  · obtain ⟨store, hstore, hof⟩ := hsound.exists_store hjournal
    rw [observe_eq]
    refine length_reportAll ?_ hof outside fun _ h => Monitors.raises_of_mem_notices h
    exact hstore
  · obtain ⟨store, lines, hstore, hof, hready, rfl⟩ := hstoring.ready hsound outside hbefore
    obtain ⟨ids, next, store', added, hobserve, hstore', hentries, hids, htells⟩ :=
      observe_stores hstore hof hstoring.unlimited hstoring.fits hready hyear signal
    rw [hobserve]
    exact ⟨added, fun later => (handle_entries_eq hstore' later).mpr hentries, hids, htells⟩

/-- An error of a processor, published to a daemon that was just started. -/
theorem publish_stores_processor_error :
    let config : Config := { Config.default with logDirectory := ⟨"/log"⟩, socket := ⟨"/run"⟩ }
    let disk : Disk := ⟨.epoch, 1, [([], .directory .epoch), (["log"], .directory .epoch)]⟩
    let outside : Outside := ⟨.epoch, 0, fun _ _ => .status 200⟩
    let signal := Signal.propertiesChanged "" "/cpu" (HostError.interface "IERR")
      [("Asserted", .bool true)]
    let made : Record := ⟨2, "cpu Asserted", [0, 0xFF, 0xFF], .system 0x20 "/cpu" true, []⟩
    ∃ d disk' delivered next entry, Daemon.start config 1 [] disk = (.ok d, disk') ∧
      d.handle outside (.publish signal) = (.published delivered [entry.id], next) ∧
      (next.handle outside .entries).1 = .entries [entry] ∧ entry.Tells signal made := by
  intro config disk outside signal made
  have hdisk : (Daemon.start config 1 [] disk).1.map (fun d =>
      (d.disk.list config.logDirectory, d.disk.readText config.store.activeFile))
      = .ok (.ok [], .error .noEntry) := by decide +kernel
  have hanswers : (Daemon.start config 1 [] disk).1.map (fun d =>
      ((d.handle outside .entries).1, (d.monitors.dispatch d.registry.peers signal).notices))
      = .ok (.entries [], [.record made]) := by decide +kernel
  rcases hstart : Daemon.start config 1 [] disk with ⟨e | d, disk'⟩ <;>
    rw [hstart] at hdisk hanswers
  · cases hdisk
  · obtain ⟨hlist, hread⟩ := by simpa only [Except.map, Except.ok.injEq, Prod.mk.injEq] using hdisk
    obtain ⟨hbefore, hnotices⟩ := by
      simpa only [Except.map, Except.ok.injEq, Prod.mk.injEq] using hanswers
    have hstoring : d.Storing config :=
      ⟨⟨none, rfl⟩, rfl, by decide, by decide, by decide, ⟨[], hlist, List.nodup_nil⟩,
        fun text htext => by cases hread.symm.trans htext⟩
    obtain ⟨ids, next, hanswer, -, -, hstored⟩ :=
      (publish_stores_emitted (.started hstart)).2.2 outside signal
    obtain ⟨added, hentries, rfl, htells⟩ := hstored [] hstoring (by decide +kernel) hbefore
    rw [hnotices] at htells
    cases htells with
    | cons hentry hrest =>
      cases hrest
      exact ⟨d, disk', _, next, _, rfl, hanswer, hentries outside, hentry⟩

/-- The prefix names a directory below that of the log.  The record is written to a file there,
and so with success, but the daemon looks for entries in the directory of the log only. -/
theorem publish_beside_log :
    let config : Config :=
      { Config.default with logDirectory := ⟨"/log"⟩, logName := "d/sel", socket := ⟨"/run"⟩ }
    let disk : Disk := ⟨.epoch, 1, [([], .directory .epoch), (["log"], .directory .epoch),
      (["log", "d"], .directory .epoch)]⟩
    let outside : Outside := ⟨.epoch, 0, fun _ _ => .status 200⟩
    let signal := Signal.propertiesChanged "" "/cpu" (HostError.interface "IERR")
      [("Asserted", .bool true)]
    let made : Record := ⟨2, "cpu Asserted", [0, 0xFF, 0xFF], .system 0x20 "/cpu" true, []⟩
    ∃ d disk' next, Daemon.start config 1 [] disk = (.ok d, disk') ∧
      (d.handle outside .entries).1 = .entries [] ∧
      d.disk.readText config.store.activeFile = .error .noEntry ∧
      d.handle outside (.publish signal) = (.published 1 [⟨1⟩], next) ∧
      next.disk.readText config.store.activeFile
        = .ok (String.ofList (Line.format .epoch ⟨1⟩ made ++ ['\n'])) ∧
      (next.handle outside .entries).1 = .entries [] := by
  intro config disk outside signal made
  have hanswers : (Daemon.start config 1 [] disk).1.map (fun d =>
      let published := d.handle outside (.publish signal)
      ((d.handle outside .entries).1, d.disk.readText config.store.activeFile, published.1,
        published.2.disk.readText config.store.activeFile,
        (published.2.handle outside .entries).1))
      = .ok (.entries [], .error .noEntry, .published 1 [⟨1⟩],
        .ok (String.ofList (Line.format .epoch ⟨1⟩ made ++ ['\n'])), .entries []) := by
    decide +kernel
  rcases hstart : Daemon.start config 1 [] disk with ⟨e | d, disk'⟩ <;> rw [hstart] at hanswers
  · cases hanswers
  · obtain ⟨hbefore, hmissing, hanswer, hwritten, hafter⟩ := by
      simpa only [Except.map, Except.ok.injEq, Prod.mk.injEq] using hanswers
    exact ⟨d, disk', _, rfl, hbefore, hmissing, Prod.ext hanswer rfl, hwritten, hafter⟩

end Daemon

end EventLog
