import EventLog.Pipeline
import EventLog.Proofs.Allocator
import EventLog.Proofs.Store.Growth
import EventLog.Proofs.Store.Reuse

/-!
# EventLog.Proofs.Pipeline

What becomes of a record on its way.

* `run_record`: all that the pipeline does with a record;
* `HasStore`: the store of a pipeline stays that of its configuration, and hands
  out valid numbers only;
* `Recording`: the three ways to ask for a record, and the check that each makes;
* `recording_exactly_once`: a record that is refused leaves no trace, and every
  other one is given to the sink once, with the number that the caller is given.
-/

namespace EventLog

open Step

/-! ## Stores that hand out valid numbers -/

namespace Store

/-- A store with the given configuration, which hands out valid numbers only. -/
structure IsOf (config : StoreConfig) (store : Store) : Prop where
  config_eq : store.config = config
  proper : store.allocator.Proper

variable {config : StoreConfig} {store : Store} {disk next : Disk}

/-- Clearing leaves the configuration of a store, and its numbers valid. -/
theorem IsOf.clear (h : store.IsOf config) (time : Timestamp) (disk : Disk) :
    (store.clear time disk).2.1.IsOf config := by
  rw [Store.clear]
  split
  · exact ⟨h.config_eq, Allocator.proper_resume []⟩
  · exact h

/-- Deleting leaves the configuration of a store, and its numbers valid. -/
theorem IsOf.delete (h : store.IsOf config) (id : RecordId) (disk : Disk) :
    (store.delete id disk).2.1.IsOf config := by
  rw [Store.delete]
  split
  · exact ⟨h.config_eq, h.proper.release id⟩
  · exact h

/-- A store that was opened is one of its configuration. -/
theorem isOf_open (h : (Store.open config).run disk = (.ok store, next)) : store.IsOf config := by
  obtain ⟨hconfig, present, hpresent⟩ := StoreConfig.open_resumes h
  exact ⟨hconfig, hpresent ▸ Allocator.proper_resume present⟩

end Store

namespace Pipeline

/-! ## Single steps -/

/-- An entry for the sink is noted, and the answer is the sink's. -/
theorem run_emit (around : Surroundings) (entry : SinkEntry) (p : Pipeline) :
    (emit around entry).run p =
      (match around.emit entry with
        | .ok () => .ok ()
        | .error e => .error (.sink e),
        { p with calls := p.calls ++ [.emit entry] }) := by
  rw [emit]
  cases around.emit entry <;> rfl

/-- **All that the pipeline does with a record.**  Without a store the answer is
that of the sink.  With one the check comes first, and then neither the disk nor
the sink has a say in the answer. -/
theorem run_record (around : Surroundings) (made : Record) (p : Pipeline) :
    (record around made).run p =
      match p.store with
      | none =>
        (match around.emit (.record .unassigned made) with
          | .ok () => .ok .unassigned
          | .error e => .error (.sink e),
          { p with calls := p.calls ++ [.emit (.record .unassigned made)] })
      | some store =>
        match Store.checkRecord made with
        | .error e => (.error (.eventData e), p)
        | .ok () =>
          let (id, allocator) := store.allocator.allocate
          let line := Line.format around.now id made
          (.ok id,
            ⟨some { store with allocator }, ((store.config.writeLine line).run p.disk).2,
              p.calls ++ [.emit (.record id made)]⟩) := by
  obtain ⟨store, disk, calls⟩ := p
  cases store with
  | none =>
    simp only [record, persist, run_bind, run_get, run_pure, run_tryCatch, run_emit]
    cases around.emit (.record .unassigned made) <;> rfl
  | some store =>
    simp only [record, persist, run_bind, run_get, run_set, Store.append]
    cases Store.checkRecord made with
    | error e => rfl
    | ok _ =>
      -- Whatever the disk and the sink say, the number is the answer.
      rcases (store.config.writeLine
        (Line.format around.now store.allocator.allocate.1 made)).run disk with ⟨e | _, next⟩ <;>
      simp only [run_pure, run_tryCatch, run_bind, run_emit] <;>
      cases around.emit (.record store.allocator.allocate.1 made) <;> rfl

/-! ## The store of a pipeline -/

/-- The pipeline has a store of the given configuration, or none if there is no configuration. -/
def HasStore : Option StoreConfig → Pipeline → Prop
  | none, p => p.store = none
  | some config, p => ∃ store, p.store = some store ∧ store.IsOf config

variable {config? : Option StoreConfig}

/-- A pipeline with the same store has it as its configuration says. -/
theorem HasStore.of_store_eq {p next : Pipeline} (h : HasStore config? p)
    (heq : next.store = p.store) : HasStore config? next := by
  cases config? with
  | none => exact heq.trans h
  | some config =>
    obtain ⟨store, hstore, hof⟩ := h
    exact ⟨store, heq.trans hstore, hof⟩

/-- Giving an entry to the sink keeps the store. -/
theorem keeps_emit (around : Surroundings) (entry : SinkEntry) :
    Keeps (HasStore config?) (emit around entry) := by
  intro p h
  rw [run_emit]
  exact h.of_store_eq rfl

/-- A record keeps the store, whether it is stored, refused or passed on. -/
theorem keeps_record (around : Surroundings) (made : Record) :
    Keeps (HasStore config?) (record around made) := by
  intro p h
  rw [run_record]
  cases config? with
  | none =>
    have hnone : p.store = none := h
    rw [hnone]
    rfl
  | some config =>
    obtain ⟨store, hstore, hof⟩ := h
    rw [hstore]
    cases Store.checkRecord made with
    | error e => exact ⟨store, hstore, hof⟩
    | ok _ => exact ⟨_, rfl, hof.config_eq, hof.proper.allocate.2⟩

theorem keeps_addSystem (around : Surroundings) (message sensor : String) (data : List UInt8)
    (assert : Bool) (generator : UInt16) :
    Keeps (HasStore config?) (addSystem around message sensor data assert generator) := by
  rw [addSystem]
  split
  · exact keeps_record around _
  · exact Keeps.throw _

theorem keeps_addOem (around : Surroundings) (message : String) (data : List UInt8)
    (recordType : UInt8) : Keeps (HasStore config?) (addOem around message data recordType) := by
  rw [addOem]
  split
  · exact keeps_record around _
  · exact Keeps.throw _

/-- A notice keeps the store. -/
theorem keeps_submit (around : Surroundings) (notice : Notice) :
    Keeps (HasStore config?) (submit around notice) := by
  cases notice with
  | record made =>
    rw [submit, map_eq_pure_bind]
    exact (keeps_record around made).bind fun _ => Keeps.pure _
  | informational message metadata =>
    exact (keeps_emit around _).bind fun _ => Keeps.pure _

/-- An operation that needs the store is refused where there is none. -/
theorem run_storeFor (operation : String) (p : Pipeline) :
    (storeFor operation).run p =
      (match p.store with
        | some store => .ok store
        | none => .error (.unsupported operation), p) := by
  rw [storeFor, run_bind, run_get]
  dsimp only
  cases p.store <;> rfl

/-- An operation that needs the store keeps what it keeps of a store. -/
theorem keeps_storeFor {α : Type} {operation : String} {step : Store → PipelineM α}
    (h : ∀ config store, store.IsOf config → ∀ p : Pipeline, p.store = some store →
      HasStore (some config) ((step store).run p).2) :
    Keeps (HasStore config?) (storeFor operation >>= step) := by
  intro p hp
  rw [run_bind, run_storeFor]
  cases config? with
  | none =>
    have hnone : p.store = none := hp
    rw [hnone]
    exact hnone
  | some config =>
    obtain ⟨store, hstore, hof⟩ := hp
    rw [hstore]
    exact h config store hof p hstore

/-- Clearing keeps the store that of its configuration. -/
theorem keeps_clear (around : Surroundings) : Keeps (HasStore config?) (clear around) := by
  refine keeps_storeFor fun config store hof p _ => ?_
  have hnext := hof.clear around.now p.disk
  simp only [run_bind, run_get]
  cases (store.clear around.now p.disk).1 <;> exact ⟨_, rfl, hnext⟩

/-- Deleting keeps the store that of its configuration. -/
theorem keeps_delete (id : RecordId) : Keeps (HasStore config?) (delete id) := by
  refine keeps_storeFor fun config store hof p hstore => ?_
  have hnext := hof.delete id p.disk
  split
  · exact ⟨store, hstore, hof⟩
  · simp only [run_bind, run_get]
    rcases (store.delete id p.disk).1 with _ | _ | _ <;> exact ⟨_, rfl, hnext⟩

/-- A step that only reads the log leaves the pipeline as it is. -/
theorem run_reading {α : Type} (step : StoreM α) (p : Pipeline) :
    (reading step).run p =
      (match (step.run p.disk).1 with
        | .ok a => .ok a
        | .error e => .error (.storage e), p) := by
  rw [reading, run_bind, run_get]
  dsimp only
  rcases step.run p.disk with ⟨_ | _, disk⟩ <;> rfl

/-- An operation that reads the log keeps the store. -/
theorem keeps_reading {α : Type} (operation : String) (step : Store → StoreM α) :
    Keeps (HasStore config?) (storeFor operation >>= fun store => reading (step store)) := by
  refine keeps_storeFor fun config store hof p hstore => ?_
  rw [run_reading]
  exact ⟨store, hstore, hof⟩

/-! ## Asking for a record -/

/-- What the pipeline is asked to record: what a record is made of, or a record. -/
inductive Recording where
  | system (message sensor : String) (data : List UInt8) (assert : Bool) (generator : UInt16)
  | oem (message : String) (data : List UInt8) (recordType : UInt8)
  | given (made : Record)

/-- The refusal of event data that is over a limit. -/
def dataFault? (limit : Nat) (data : List UInt8) : Option RecordError :=
  if limit < data.length then some (.dataTooLong data.length limit) else none

/-- The refusal of a text that is no sensor path. -/
def pathFault? (path : String) : Option RecordError :=
  if IsSensorPath path then none else some (.invalidSensorPath path)

namespace Recording

/-- The step that is asked for. -/
def step (around : Surroundings) : Recording → PipelineM RecordId
  | system message sensor data assert generator =>
    addSystem around message sensor data assert generator
  | oem message data recordType => addOem around message data recordType
  | given made => Pipeline.record around made

/-- The record that is asked for. -/
def made : Recording → Record
  | system message sensor data assert generator =>
    ⟨systemRecordType, message, data, .system generator sensor assert, []⟩
  | oem message data recordType => ⟨recordType, message, data, .oem, []⟩
  | given made => made

/-- Why a record is refused.  The path of one that is given counts only if records are stored. -/
def fault? (stores : Bool) : Recording → Option RecordError
  | system _ sensor data _ _ => (dataFault? systemDataLimit data).or (pathFault? sensor)
  | oem _ data _ => dataFault? oemDataLimit data
  | given made => if stores then made.sensorPath?.bind pathFault? else none

/-- Event data is refused if it is over the limit, and only then. -/
theorem checkData_eq (limit : Nat) (data : List UInt8) :
    checkData limit data =
      match dataFault? limit data with
      | some e => .error e
      | none => .ok () := by
  rw [checkData, dataFault?]
  by_cases h : data.length ≤ limit
  · rw [if_pos h, if_neg (Nat.not_lt.mpr h)]
  · rw [if_neg h, if_pos (Nat.lt_of_not_le h)]

/-- A text is refused as a path if it is none. -/
theorem checkSensorPath_eq (path : String) :
    checkSensorPath path =
      match pathFault? path with
      | some e => .error e
      | none => .ok () := by
  rw [checkSensorPath, pathFault?]
  split <;> rfl

/-- The store refuses a record for its sensor path only. -/
theorem checkRecord_eq (made : Record) :
    Store.checkRecord made =
      match made.sensorPath?.bind pathFault? with
      | some e => .error e
      | none => .ok () := by
  rw [Store.checkRecord]
  cases made.sensorPath? with
  | none => rfl
  | some path => exact checkSensorPath_eq path

/-- A system record is refused for its data, and otherwise for its path. -/
theorem system?_eq (message sensor : String) (data : List UInt8) (assert : Bool)
    (generator : UInt16) :
    Record.system? message sensor data assert generator =
      match (dataFault? systemDataLimit data).or (pathFault? sensor) with
      | some e => .error e
      | none => .ok ⟨systemRecordType, message, data, .system generator sensor assert, []⟩ := by
  rw [Record.system?, checkData_eq, checkSensorPath_eq]
  cases dataFault? systemDataLimit data <;> cases pathFault? sensor <;> rfl

/-- An OEM record is refused for its data only. -/
theorem oem?_eq (message : String) (data : List UInt8) (recordType : UInt8) :
    Record.oem? message data recordType =
      match dataFault? oemDataLimit data with
      | some e => .error e
      | none => .ok ⟨recordType, message, data, .oem, []⟩ := by
  rw [Record.oem?, checkData_eq]
  cases dataFault? oemDataLimit data <;> rfl

/-- A record that is not refused passes the check of the store. -/
theorem checkRecord_made {r : Recording} (h : r.fault? true = none) :
    Store.checkRecord r.made = .ok () := by
  rw [checkRecord_eq]
  cases r with
  | system message sensor data assert generator =>
    rw [fault?, Option.or_eq_none_iff] at h
    simp only [made, Record.sensorPath?, Option.bind_some, h.2]
  | oem message data recordType => rfl
  | given made =>
    rw [fault?, if_pos rfl] at h
    simp only [Recording.made, h]

/-- A refusal ends the step before anything was done; otherwise the record goes its way. -/
theorem run_step (around : Surroundings) (r : Recording) (p : Pipeline) :
    (r.step around).run p =
      match r.fault? p.store.isSome with
      | some e => (.error (.eventData e), p)
      | none => (Pipeline.record around r.made).run p := by
  cases r with
  | system message sensor data assert generator =>
    rw [step, addSystem, system?_eq, fault?]
    cases (dataFault? systemDataLimit data).or (pathFault? sensor) <;> rfl
  | oem message data recordType =>
    rw [step, addOem, oem?_eq, fault?]
    cases dataFault? oemDataLimit data <;> rfl
  | given made =>
    rw [step, fault?, Recording.made, run_record]
    cases p.store with
    | none => rfl
    | some store =>
      rw [checkRecord_eq]
      cases made.sensorPath?.bind pathFault? <;> rfl

end Recording

/-! ## Reachable states -/

/-- What is done with a pipeline. -/
inductive Op where
  | recording (r : Recording)
  | submit (notice : Notice)
  | clear
  | delete (id : RecordId)
  | info
  | entries

/-- The pipeline behind an operation, whether it failed or not. -/
def after (around : Surroundings) (p : Pipeline) : Op → Pipeline
  | .recording r => ((r.step around).run p).2
  | .submit notice => ((submit around notice).run p).2
  | .clear => ((Pipeline.clear around).run p).2
  | .delete id => ((Pipeline.delete id).run p).2
  | .info => (Pipeline.info.run p).2
  | .entries => (Pipeline.entries.run p).2

/-- The states of a pipeline: it starts without a store, or with a log that was
opened, and at any time others may change the disk. -/
inductive Reachable : Pipeline → Prop where
  | forwarding (disk : Disk) : Reachable ⟨none, disk, []⟩
  | storing {config : StoreConfig} {store : Store} {before disk : Disk}
      (h : (Store.open config).run before = (.ok store, disk)) : Reachable ⟨some store, disk, []⟩
  | step {p : Pipeline} (h : Reachable p) (around : Surroundings) (op : Op) :
      Reachable (p.after around op)
  | elsewhere {p : Pipeline} (h : Reachable p) (disk : Disk) : Reachable { p with disk }

/-- Every operation keeps the store that of its configuration. -/
theorem HasStore.after {p : Pipeline} (h : HasStore config? p) (around : Surroundings) (op : Op) :
    HasStore config? (p.after around op) := by
  cases op with
  | recording r =>
    cases r with
    | system => exact keeps_addSystem around _ _ _ _ _ p h
    | oem => exact keeps_addOem around _ _ _ p h
    | given made => exact keeps_record around made p h
  | submit notice => exact keeps_submit around notice p h
  | clear => exact keeps_clear around p h
  | delete id => exact keeps_delete id p h
  | info => exact keeps_reading "info" Store.info p h
  | entries => exact keeps_reading "entries" Store.entries p h

/-- The store is that of its configuration in every state. -/
theorem Reachable.hasStore {p : Pipeline} (h : p.Reachable) : ∃ config?, HasStore config? p := by
  induction h with
  | forwarding disk => exact ⟨none, rfl⟩
  | storing h => exact ⟨some _, _, rfl, Store.isOf_open h⟩
  | step _ around op ih =>
    obtain ⟨config?, h⟩ := ih
    exact ⟨config?, h.after around op⟩
  | elsewhere _ disk ih =>
    obtain ⟨config?, h⟩ := ih
    exact ⟨config?, h.of_store_eq rfl⟩

/-- In every state the store hands out a valid number next. -/
theorem Reachable.isValid_allocate {p : Pipeline} (h : p.Reachable) {store : Store}
    (hstore : p.store = some store) : store.allocator.allocate.1.IsValid := by
  obtain ⟨_ | config, hhas⟩ := h.hasStore
  · have hnone : p.store = none := hhas
    rw [hnone] at hstore
    cases hstore
  · obtain ⟨found, hfound, hof⟩ := hhas
    obtain rfl := Option.some.inj (hfound.symm.trans hstore)
    exact hof.proper.allocate.1

/-- **A record is given to the sink once, or it leaves no trace.**  If it is
refused nothing was done; otherwise the sink got it as it is, and with the
number that the caller is given.

Without a store there is no number, and the answer is that of the sink.  With one
the number is the next one of the store, which has moved on by one, whether or
not the line could be written and whatever the sink said.  If it was written to an
active file with room, that file holds the line behind what it held before: a line of
its own, if the text before it was ended, of which the record is read back.  The whole
log has that line more if it is `Log.Ready`, so that the active file is one of its files
and all others can be read. -/
theorem recording_exactly_once {p : Pipeline} (hp : p.Reachable) (around : Surroundings)
    (r : Recording) :
    let answer := (r.step around).run p
    match r.fault? p.store.isSome with
    | some e => answer = (.error (.eventData e), p)
    | none => ∃ id : RecordId, answer.2.calls = p.calls ++ [.emit (.record id r.made)] ∧
      match p.store with
      | none =>
        id = .unassigned ∧ answer.2.store = none ∧ answer.2.disk = p.disk ∧
          answer.1 = match around.emit (.record id r.made) with
            | .ok () => .ok id
            | .error e => .error (.sink e)
      | some store =>
        let line := Line.format around.now id r.made
        let active := store.config.activeFile
        let written := (store.config.writeLine line).run p.disk
        let store' := { store with allocator := store.allocator.allocate.2 }
        answer.1 = .ok id ∧ id = store.allocator.allocate.1 ∧ 1 ≤ id.toNat ∧ id.toNat ≤ 65534 ∧
          answer.2.store = some store' ∧ answer.2.disk = written.2 ∧
          (0 ≤ around.now.date.year ∧ around.now.date.year ≤ 9999 →
            Entry.ofLine? line = .ok (r.made.entry around.now id)) ∧
          (Log.HasRoom ⟨store, p.disk⟩ → written.1 = .ok () →
            (∃ bytes, p.disk.Holds active bytes ∧
              answer.2.disk.read active = .ok (bytes ++ bytesOf (line ++ ['\n'])) ∧
              ∀ text, bytes = bytesOf text → IsEnded text →
                (readLines active).run answer.2.disk
                  = (.ok (storedLines text ++ [line]), answer.2.disk)) ∧
            ∀ lines, Log.Ready ⟨store, p.disk⟩ lines →
              Log.lines ⟨store', answer.2.disk⟩ = .ok (lines ++ [line])) := by
  intro answer
  have hanswer : answer = _ := r.run_step around p
  cases hfault : r.fault? p.store.isSome with
  | some e =>
    rw [hfault] at hanswer
    exact hanswer
  | none =>
    rw [hfault, run_record] at hanswer
    cases hstore : p.store with
    | none =>
      rw [hstore] at hanswer
      exact ⟨.unassigned, by rw [hanswer], rfl, by rw [hanswer], by rw [hanswer], by rw [hanswer]⟩
    | some store =>
      rw [hstore] at hfault
      have hcheck := Recording.checkRecord_made hfault
      rw [hstore, hcheck] at hanswer
      have hpath := checkRecord_eq_ok.mp hcheck
      obtain ⟨hfirst, hlast⟩ := (RecordId.isValid_iff _).mp (hp.isValid_allocate hstore)
      refine ⟨store.allocator.allocate.1, by rw [hanswer], by rw [hanswer], rfl, hfirst, hlast,
        by rw [hanswer], by rw [hanswer], fun hyear => Line.ofLine?_format hyear _ hpath,
        fun hroom hwritten => ?_⟩
      have hwrite : (store.config.writeLine
          (Line.format around.now store.allocator.allocate.1 r.made)).run p.disk = (.ok (), _) :=
        Prod.ext hwritten rfl
      rw [hanswer]
      refine ⟨?_, fun lines hready => hready.lines_of_write hroom hpath hwrite _⟩
      obtain ⟨bytes, hholds, hread⟩ := hroom.read_of_write hwrite
      refine ⟨bytes, hholds, hread, fun text htext hended => ?_⟩
      subst htext
      exact run_readLines_of_ended hread hended (isStoredLine_format around.now _ hpath)

/-- A record for a log that was just opened, and a sink that fails. -/
theorem recording_exactly_once_first :
    let config : StoreConfig := ⟨⟨"/log"⟩, "sel", ⟨"/erased"⟩, 0, 1⟩
    let disk : Disk := ⟨.epoch, 1, [([], .directory .epoch), (["log"], .directory .epoch)]⟩
    let around : Surroundings := ⟨.epoch, fun _ => .error (.request "")⟩
    let r : Recording := .system "on" "/fan" [1, 2, 3] true 0x20
    let line := Line.format .epoch ⟨1⟩ r.made
    ∃ log next, Log.open config disk = .ok log ∧
      (r.step around).run ⟨some log.store, log.disk, []⟩ = (.ok ⟨1⟩, next) ∧
      next.calls = [.emit (.record ⟨1⟩ r.made)] ∧
      (readLines config.activeFile).run next.disk = (.ok [line], next.disk) ∧
      Log.lines ⟨⟨config, ⟨⟨1⟩, []⟩⟩, next.disk⟩ = .ok [line] ∧
      Entry.ofLine? line = .ok (r.made.entry .epoch ⟨1⟩) := by
  intro config disk around r line
  have hstart : (Log.open config disk).map (fun log =>
      (log.store.config, log.store.allocator, log.disk.list config.directory))
      = .ok (config, ⟨.invalid, []⟩, .ok []) := by decide +kernel
  have htext : (Log.open config disk).map (fun log =>
      (log.lines, log.disk.readText config.activeFile)) = .ok (.ok [], .error .noEntry) := by
    decide +kernel
  cases hopen : Log.open config disk with
  | error e =>
    rw [hopen] at hstart
    cases hstart
  | ok log =>
    rw [hopen, Except.map, Except.ok.injEq] at hstart htext
    obtain ⟨hconfig, hallocator, hlist⟩ := by simpa only [Prod.mk.injEq] using hstart
    obtain ⟨hlines, hread⟩ := by simpa only [Prod.mk.injEq] using htext
    obtain ⟨⟨_, _⟩, start⟩ := log
    obtain rfl := hconfig
    obtain rfl := hallocator
    have hready : Log.Ready ⟨⟨config, ⟨.invalid, []⟩⟩, start⟩ [] :=
      ⟨(by decide : IsFileName "sel"), (by decide : (1 : Nat) < Text.wordLimit),
        ⟨[], hlist, List.nodup_nil⟩, hlines, fun text htext => by cases hread.symm.trans htext⟩
    obtain ⟨id, hcalls, hanswer, rfl, -, -, hstore, -, hentry, hlog⟩ :=
      recording_exactly_once (.storing (Log.open_ok hopen)) around r
    have hroom : Log.HasRoom ⟨⟨config, ⟨.invalid, []⟩⟩, start⟩ := fun _ _ => .inl rfl
    obtain ⟨_, hwritten⟩ := hready.exists_write hroom (by decide : "sel".utf8ByteSize ≤ 255) line
    obtain ⟨⟨bytes, hholds, -, hlast⟩, hgrown⟩ := hlog hroom (congrArg Prod.fst hwritten)
    obtain rfl : bytes = bytesOf [] := by
      rcases hholds with hbytes | ⟨-, rfl⟩
      · have hmissing : start.readText config.activeFile = .error .noEntry := hread
        simp only [Disk.readText, hbytes, Bind.bind, Except.bind] at hmissing
        split at hmissing <;> cases hmissing
      · rfl
    exact ⟨_, _, rfl, Prod.ext hanswer rfl, hcalls, hlast [] rfl (fun _ hc => by cases hc),
      hgrown [] hready, hentry (by decide +kernel)⟩

end Pipeline

end EventLog
