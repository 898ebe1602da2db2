import EventLog.Proofs.Store.Numbering

/-!
# EventLog.Proofs.Store.Reuse

When a log hands out a number that is stored.

Nothing looks for a number among the stored ones.  They are kept apart because
the counter stands at the highest number when the log is opened, and because a
number is free only once its record is gone.  The counter is cyclic, so this
holds until it has come to the last number.

* `Orderly`, `Ahead`: what operations keep, up to then and as long as no stored
  number was handed out;
* `reuse_only_behind_last`: the first stored number that a run hands out is
  taken from a counter that has come to its end;
* `reuse_behind_last`: and then it can be.
-/

namespace EventLog

open Disk (StandsAt)
open Step

/-- An operation that sets the counter anew. -/
def LogOp.restarts : LogOp → Bool
  | .clear _ => true
  | .reopen => true
  | _ => false

namespace Log

open StoreConfig

/-- A record with a number is stored. -/
def stores (log : Log) (id : RecordId) : Bool :=
  match log.lines with
  | .ok lines => lines.any (hasId id)
  | .error _ => false

/-- Some operation of a run adds a record under a number that is stored. -/
def reuses (log : Log) : List LogOp → Bool
  | [] => false
  | op :: ops =>
    match log.perform op with
    | .ok (.appended id, next) => log.stores id || next.reuses ops
    | .ok (_, next) => next.reuses ops
    | .error _ => false

/-- After a run, the counter has come to the last number since the log was last
opened or cleared. -/
def CameToEnd (start : Log) (ops : List LogOp) : Prop :=
  ∃ early late answers log, ops = early ++ late ∧ (∀ op ∈ late, op.restarts = false) ∧
    start.run early = .ok (answers, log) ∧ log.store.allocator.counter = .last

variable {config : StoreConfig} {place : Place} {start log next : Log} {op : LogOp}
  {ops : List LogOp} {answer : LogAnswer} {answers : List LogAnswer}

theorem reuses_cons (h : log.perform op = .ok (answer, next)) :
    log.reuses (op :: ops) = (log.reuses [op] || next.reuses ops) := by
  cases answer <;> simp [reuses, h]

/-- A run with one more operation reuses a number if the run did or that operation does. -/
theorem reuses_concat (h : start.run ops = .ok (answers, log)) (op : LogOp) :
    start.reuses (ops ++ [op]) = (start.reuses ops || log.reuses [op]) := by
  induction ops generalizing start answers with
  | nil =>
    cases h
    rfl
  | cons first ops ih =>
    obtain ⟨answer, next, rest, hop, hrest, -⟩ := run_cons_eq_ok.mp h
    rw [List.cons_append, reuses_cons hop, ih hrest, ← Bool.or_assoc, ← reuses_cons hop]

/-- A counter that came to its end has come to it until the log is opened or cleared. -/
theorem CameToEnd.concat (h : start.CameToEnd ops) (hop : op.restarts = false) :
    start.CameToEnd (ops ++ [op]) := by
  obtain ⟨early, late, answers, log, rfl, hlate, hrun, hlast⟩ := h
  refine ⟨early, late ++ [op], answers, log, List.append_assoc _ _ _, ?_, hrun, hlast⟩
  exact List.forall_mem_append.mpr ⟨hlate, List.forall_mem_singleton.mpr hop⟩

/-! ## Valid numbers -/

/-- A deletion releases the number, or leaves the allocator as it is. -/
theorem delete_allocator_cases {id : RecordId} (h : log.perform (.delete id) = .ok (answer, next)) :
    next.store.allocator = log.store.allocator ∨
      next.store.allocator = (log.store.allocator.release id).2 := by
  unfold perform at h
  dsimp only at h
  split at h
  · next found store disk hdelete =>
    cases h
    rw [Store.delete] at hdelete
    split at hdelete
    · cases hdelete
      exact .inr rfl
    · cases hdelete
      exact .inl rfl
  · cases h

/-- A log that is cleared has its allocator afresh. -/
theorem clear_allocator_eq {time : Timestamp} (h : log.perform (.clear time) = .ok (answer, next)) :
    next.store.allocator = Allocator.fresh := by
  obtain ⟨-, hclear⟩ := clear_ok h
  rw [Store.clear] at hclear
  split at hclear
  · rw [Prod.mk.injEq, Prod.mk.injEq] at hclear
    rw [← hclear.2.1]
  · cases hclear

/-- Every operation keeps the free numbers valid, whatever is stored. -/
theorem proper_perform (h : log.store.allocator.Proper)
    (hop : log.perform op = .ok (answer, next)) : next.store.allocator.Proper := by
  cases op with
  | append time record =>
    rcases append_ok hop with ⟨_, -, -, rfl⟩ | ⟨-, -, hstore, -⟩
    · exact h
    · rw [hstore]
      exact h.allocate.2
  | delete id =>
    rcases delete_allocator_cases hop with hsame | hreleased
    · rwa [hsame]
    · rw [hreleased]
      exact h.release id
  | clear time =>
    rw [clear_allocator_eq hop]
    exact Allocator.proper_resume []
  | reopen =>
    obtain ⟨-, hopen⟩ := reopen_ok hop
    obtain ⟨-, present, hpresent⟩ := open_resumes hopen
    rw [hpresent]
    exact Allocator.proper_resume present

/-- A log that opens is the store that opened, on the disk that is left. -/
theorem open_ok {disk : Disk} (h : Log.open config disk = .ok log) :
    (Store.open config).run disk = (.ok log.store, log.disk) := by
  rw [Log.open] at h
  split at h
  · next hopen =>
    cases h
    exact hopen
  · cases h

/-- Every number that is handed out in a run is valid. -/
theorem isValid_of_run {disk : Disk} (hopen : Log.open config disk = .ok start)
    (hrun : start.run ops = .ok (answers, log)) {time : Timestamp} {record : Record} {id : RecordId}
    (hop : log.perform (.append time record) = .ok (.appended id, next)) : id.IsValid := by
  obtain ⟨-, present, hpresent⟩ := open_resumes (open_ok hopen)
  have hstart : start.store.allocator.Proper := by
    rw [hpresent]
    exact Allocator.proper_resume present
  have hproper := run_induction (fun _ _ _ _ => proper_perform) hstart hrun
  rcases append_ok hop with ⟨_, -, h, -⟩ | ⟨-, h, -, -⟩
  · cases h
  · cases h
    exact hproper.allocate.1

/-! ## Orderly logs -/

/-- The files of a log carry no number twice, and no number that is free. -/
structure Orderly (config : StoreConfig) (place : Place) (log : Log) : Prop where
  config_eq : log.store.config = config
  stands : StandsAt config.directory place log.disk
  numbered : config.Numbered (log.disk.children place)
  apart : log.store.allocator.Apart (config.Holds (log.disk.children place))

/-- The counter has passed every number that is stored or free. -/
def Ahead (config : StoreConfig) (place : Place) (log : Log) : Prop :=
  log.store.allocator.Ahead (config.Holds (log.disk.children place))

/-- An orderly log reads all files of the directory, from the oldest to the active one. -/
theorem Orderly.lines_eq (h : log.Orderly config place) (hname : IsFileName config.logName) :
    log.lines = .ok ((config.logNames log.disk place).reverse.flatMap fun name =>
      linesAt (log.disk.children place name)) := by
  rw [lines, h.config_eq, run_allLines h.stands hname h.numbered.readable]

/-- An orderly log stores a number exactly if some file holds it. -/
theorem Orderly.stores_iff (h : log.Orderly config place) (hname : IsFileName config.logName)
    (id : RecordId) : log.stores id = true ↔ config.Holds (log.disk.children place) id := by
  simp only [stores, h.lines_eq hname]
  rw [← mem_ids_iff fun _ => List.mem_reverse, List.any_eq_true, List.mem_filterMap]
  simp only [hasId, beq_iff_eq]

/-- A record that is added brings at most its own number to the files. -/
theorem Orderly.write (h : log.Orderly config place) (hname : IsFileName config.logName)
    (hword : config.HasWord) {time : Timestamp} {id : RecordId} {record : Record}
    (hpath : record.HasSensorPath) (hnew : ¬ config.Holds (log.disk.children place) id) {disk : Disk}
    (hwrite : (config.writeLine (Line.format time id record)).run log.disk = (.ok (), disk)) :
    StandsAt config.directory place disk ∧ config.Numbered (disk.children place) ∧
      ∀ other, config.Holds (disk.children place) other →
        config.Holds (log.disk.children place) other ∨ other = id := by
  obtain ⟨table, text, number, changed, hroom, hread, htext, hfits, hturns⟩ :=
    writeLine_ok hword h.stands hname h.numbered.readable hwrite
  obtain ⟨hnumbered, hless⟩ := h.numbered.makeRoom hword hread hroom
  obtain ⟨hadded, hmore⟩ := hnumbered.add htext hfits (isStoredLine_format time id hpath)
    (fun last => Line.recordId?_append_format last time id record) (fun hid => hnew (hless id hid))
    number changed
  refine ⟨h.stands.turn hturns, hturns.children ▸ hadded, fun other hother => ?_⟩
  rw [hturns.children] at hother
  exact (hmore other hother).imp_left (hless other)

/-- An append keeps the log orderly if its number is held by no file. -/
theorem Orderly.append (h : log.Orderly config place) (hname : IsFileName config.logName)
    (hword : config.HasWord) {time : Timestamp} {record : Record}
    (hop : log.perform (.append time record) = .ok (answer, next))
    (hnew : ∀ id, answer = .appended id → ¬ config.Holds (log.disk.children place) id) :
    next.Orderly config place ∧
      (log.Ahead config place → log.store.allocator.counter ≠ .last → next.Ahead config place) := by
  rcases append_ok hop with ⟨_, -, -, rfl⟩ | ⟨hcheck, rfl, hstore, hwrite⟩
  · exact ⟨h, fun hahead _ => hahead⟩
  · obtain ⟨hstands, hnumbered, hmore⟩ :=
      h.write hname hword (checkRecord_eq_ok.mp hcheck) (hnew _ rfl) (h.config_eq ▸ hwrite)
    refine ⟨⟨by rw [hstore, ← h.config_eq], hstands, hnumbered, ?_⟩, fun hahead hlast => ?_⟩
    · rw [hstore]
      exact h.apart.allocate hmore
    · rw [Ahead, hstore]
      exact Allocator.Ahead.allocate hahead hlast hmore

/-- A deletion keeps the log orderly. -/
theorem Orderly.delete (h : log.Orderly config place) (hname : IsFileName config.logName)
    {id : RecordId} (hop : log.perform (.delete id) = .ok (answer, next)) :
    next.Orderly config place ∧ (log.Ahead config place → next.Ahead config place) := by
  obtain ⟨rfl, hs, hnumbered, hapart⟩ := h
  obtain ⟨found, -, hdelete, hstore⟩ := delete_ok hs hop
  rcases deleteFrom_ok hs hname hnumbered.readable (fun _ hm => hm) hdelete with
    ⟨rfl, hdisk, -⟩ | ⟨rfl, before, name, after, number, time, hnames, -, hany, hturns⟩
  · have hnext : next = log := by
      cases next
      cases log
      cases hdisk
      cases hstore
      rfl
    rw [hnext]
    exact ⟨⟨rfl, hs, hnumbered, hapart⟩, fun hahead => hahead⟩
  · have hmem : name ∈ log.store.config.logNames log.disk place := by simp [hnames]
    obtain ⟨hsome, hfile⟩ := mem_logNames.mp hmem
    obtain ⟨node, hnode⟩ := Option.isSome_iff_exists.mp hsome
    have hid : id ∈ idsAt (log.disk.children place name) := by
      obtain ⟨line, hline, hhas⟩ := List.any_eq_true.mp hany
      exact List.mem_filterMap.mpr ⟨line, hline, by simpa [hasId] using hhas⟩
    have hgone (line : List Char) (hline : line ∈ (linesAt (log.disk.children place name)).filter
        fun line => !hasId id line) : Line.recordId? line ≠ some id := by
      simpa [hasId] using (List.mem_filter.mp hline).2
    have hfits := (hnumbered.readable name hfile node hnode).fits
    obtain ⟨hremoved, hless⟩ :=
      hnumbered.remove hfile hfits hid List.filter_sublist hgone number time
    rw [← hturns.children] at hremoved hless
    rw [if_pos rfl] at hstore
    refine ⟨⟨by rw [hstore], hs.turn hturns, hremoved, ?_⟩, fun hahead => ?_⟩
    · rw [hstore]
      exact hapart.release hless
    · rw [Ahead, hstore]
      exact Allocator.Ahead.release hahead ⟨name, hfile, hid⟩
        fun other hother => (hless other hother).1

/-- A cleared log is orderly, and its counter is ahead. -/
theorem Orderly.clear (h : log.Orderly config place) (hname : IsFileName config.logName)
    {time : Timestamp} (hop : log.perform (.clear time) = .ok (answer, next)) :
    next.Orderly config place ∧ next.Ahead config place := by
  obtain ⟨rfl, hs, -, -⟩ := h
  obtain ⟨-, hclear⟩ := clear_ok hop
  obtain ⟨hstore, hstands, hnone⟩ := StoreConfig.clear_ok hs hname hclear
  have hids (name : String) (hfile : log.store.config.IsLogFile name) :
      idsAt (next.disk.children place name) = [] := by
    rw [hnone name hfile]
    rfl
  have hholds (id : RecordId) : ¬ log.store.config.Holds (next.disk.children place) id := by
    rintro ⟨name, hfile, hid⟩
    rw [hids name hfile] at hid
    exact absurd hid List.not_mem_nil
  refine ⟨⟨by rw [hstore], hstands, ⟨fun name hfile node hnode => ?_, fun name hfile => ?_,
    fun name other id hfile _ hid _ => ?_, fun name hfile line hline => ?_⟩, ?_⟩, ?_⟩
  · rw [hnone name hfile] at hnode
    cases hnode
  · rw [hids name hfile]
    exact List.nodup_nil
  · exact absurd ⟨name, hfile, hid⟩ (hholds id)
  · rw [hnone name hfile] at hline
    exact absurd hline List.not_mem_nil
  · rw [hstore]
    exact Allocator.apart_resume _ []
  · rw [Ahead, hstore]
    exact @Allocator.ahead_resume _ [] fun id hid => absurd hid (hholds id)

/-- A log that is opened is orderly if its files are, and its counter is ahead. -/
theorem orderly_of_open (hs : StandsAt config.directory place log.disk)
    (hname : IsFileName config.logName) (hnumbered : config.Numbered (log.disk.children place))
    {disk : Disk} (hopen : (Store.open config).run log.disk = (.ok next.store, disk))
    (hdisk : next.disk = log.disk) : next.Orderly config place ∧ next.Ahead config place := by
  rw [run_open hs hname hnumbered.readable, Prod.mk.injEq, Except.ok.injEq] at hopen
  obtain ⟨hstore, -⟩ := hopen
  refine ⟨⟨by rw [← hstore], hdisk ▸ hs, hdisk ▸ hnumbered, ?_⟩, ?_⟩
  · rw [← hstore]
    exact Allocator.apart_resume _ _
  · rw [Ahead, ← hstore, hdisk]
    exact Allocator.ahead_resume fun id hid => (mem_ids_iff fun _ => Iff.rfl).mpr hid

/-- **An operation that hands out no stored number keeps a log orderly**, and its
counter ahead unless that has come to its end. -/
theorem Orderly.perform (h : log.Orderly config place) (hname : IsFileName config.logName)
    (hword : config.HasWord) (hop : log.perform op = .ok (answer, next))
    (hnew : log.reuses [op] = false) :
    next.Orderly config place ∧ (op.restarts = true → next.Ahead config place) ∧
      (log.Ahead config place → log.store.allocator.counter ≠ .last → next.Ahead config place) := by
  cases op with
  | append time record =>
    have hfresh (id : RecordId) (ha : answer = .appended id) :
        ¬ config.Holds (log.disk.children place) id := by
      rw [← h.stores_iff hname, Bool.not_eq_true]
      simpa [reuses, hop, ha] using hnew
    obtain ⟨hnext, hahead⟩ := h.append hname hword hop hfresh
    exact ⟨hnext, fun hrestarts => (by cases hrestarts), hahead⟩
  | delete id =>
    obtain ⟨hnext, hahead⟩ := h.delete hname hop
    exact ⟨hnext, fun hrestarts => (by cases hrestarts), fun hlog _ => hahead hlog⟩
  | clear time =>
    obtain ⟨hnext, hahead⟩ := h.clear hname hop
    exact ⟨hnext, fun _ => hahead, fun _ _ => hahead⟩
  | reopen =>
    obtain ⟨rfl, hs, hnumbered, -⟩ := h
    obtain ⟨-, hopen⟩ := reopen_ok hop
    obtain ⟨hnext, hahead⟩ := orderly_of_open hs hname hnumbered hopen (open_disk_eq hs hopen)
    exact ⟨hnext, fun _ => hahead, fun _ _ => hahead⟩

/-- A run that hands out no stored number leaves a log orderly, and its counter
ahead unless that has come to its end. -/
theorem Orderly.run (h : start.Orderly config place) (hahead : start.Ahead config place)
    (hname : IsFileName config.logName) (hword : config.HasWord)
    (hrun : start.run ops = .ok (answers, log)) (hnew : start.reuses ops = false) :
    log.Orderly config place ∧ (log.Ahead config place ∨ start.CameToEnd ops) := by
  induction ops using List.reverseRecOn generalizing answers log with
  | nil =>
    cases hrun
    exact ⟨h, .inl hahead⟩
  | append_singleton ops op ih =>
    obtain ⟨front, middle, answer, hfront, hop, rfl⟩ := run_concat.mp hrun
    rw [reuses_concat hfront, Bool.or_eq_false_iff] at hnew
    obtain ⟨horderly, hcases⟩ := ih hfront hnew.1
    obtain ⟨hnext, hrestart, hstep⟩ := horderly.perform hname hword hop hnew.2
    refine ⟨hnext, ?_⟩
    cases hrestarts : op.restarts with
    | true => exact .inl (hrestart hrestarts)
    | false =>
      rcases hcases with hmiddle | hend
      · by_cases hlast : middle.store.allocator.counter = .last
        · exact .inr ⟨ops, [op], front, middle, rfl, by simpa using hrestarts, hfront, hlast⟩
        · exact .inl (hstep hmiddle hlast)
      · exact .inr (hend.concat hrestarts)

variable {disk : Disk} {names : List String} {lines : List (List Char)}

/-- A log whose lines carry no number twice is orderly when it is opened. -/
theorem orderly_start (hname : IsFileName config.logName)
    (hlist : disk.list config.directory = .ok names) (hnames : names.Nodup)
    (hopen : Log.open config disk = .ok start) (hlines : start.lines = .ok lines)
    (hdistinct : (lines.filterMap Line.recordId?).Nodup)
    (hsettled : ∀ line ∈ lines, IsSettled line) :
    ∃ place, start.Orderly config place ∧ start.Ahead config place := by
  obtain ⟨place, hs, -⟩ := Disk.standsAt_of_list hlist hnames
  have hstore := open_ok hopen
  have hdisk := open_disk_eq hs hstore
  rw [← hdisk] at hs hstore
  have hall : config.allLines.run start.disk = (.ok lines, (config.allLines.run start.disk).2) := by
    rw [Log.lines, (open_resumes hstore).1] at hlines
    exact Prod.ext hlines rfl
  have hread := readable_of_run_allLines hs hname hall
  have hsame := run_allLines hs hname hread
  rw [hall, Prod.mk.injEq, Except.ok.injEq] at hsame
  rw [hsame.1] at hdistinct hsettled
  obtain ⟨honce, hapart⟩ := (nodup_ids_iff hs).mp hdistinct
  have hnumbered : config.Numbered (start.disk.children place) := by
    refine ⟨hread, honce, hapart, fun name hfile line hline => hsettled line ?_⟩
    have hmem := mem_logNames_of_mem_linesAt hfile hline
    exact List.mem_flatMap.mpr ⟨name, List.mem_reverse.mpr hmem, hline⟩
  exact ⟨place, orderly_of_open hs hname hnumbered hstore rfl⟩

/-- **A stored number is handed out only by a counter that has come to its end.**
Every number that a run hands out is valid.  As long as it handed out no stored
one, the stored numbers are all different, and the next one is among them only
if no number is free and the counter has come to the last number since the log
was last opened or cleared. -/
theorem reuse_only_behind_last (hname : IsFileName config.logName) (hword : config.HasWord)
    (hlist : disk.list config.directory = .ok names) (hnames : names.Nodup)
    (hopen : Log.open config disk = .ok start) (hlines : start.lines = .ok lines)
    (hdistinct : (lines.filterMap Line.recordId?).Nodup) (hsettled : ∀ line ∈ lines, IsSettled line)
    (hrun : start.run ops = .ok (answers, log)) :
    (∀ time record id next, log.perform (.append time record) = .ok (.appended id, next) →
      id.IsValid) ∧
    (start.reuses ops = false → ∃ stored, log.lines = .ok stored ∧
      (stored.filterMap Line.recordId?).Nodup ∧
      ∀ time record id next, log.perform (.append time record) = .ok (.appended id, next) →
        id ∈ stored.filterMap Line.recordId? →
        log.store.allocator.free = [] ∧ start.CameToEnd ops) := by
  refine ⟨fun time record id next hop => isValid_of_run hopen hrun hop, fun hnew => ?_⟩
  obtain ⟨place, hstart, hahead⟩ :=
    orderly_start hname hlist hnames hopen hlines hdistinct hsettled
  obtain ⟨horderly, hcases⟩ := hstart.run hahead hname hword hrun hnew
  refine ⟨_, horderly.lines_eq hname, ?_, fun time record id next hop hmem => ?_⟩
  · exact (nodup_ids_iff horderly.stands).mpr ⟨horderly.numbered.once, horderly.numbered.apart⟩
  · rw [mem_ids_iff fun _ => List.mem_reverse] at hmem
    rcases append_ok hop with ⟨_, -, h, -⟩ | ⟨-, h, -, -⟩
    · cases h
    · cases h
      obtain ⟨hfree, hlast⟩ := horderly.apart.of_held_allocate hmem
      refine ⟨hfree, ?_⟩
      rcases hcases with hlog | hend
      · exact ⟨ops, [], answers, log, (List.append_nil ops).symm, by simp, hrun, hlast hlog⟩
      · exact hend

/-- The counter comes to the last number and starts again at 1, which was not stored. -/
theorem reuse_only_behind_last_of_two :
    let config : StoreConfig := ⟨⟨"/log"⟩, "sel", ⟨"/erased"⟩, 0, 1⟩
    let note : Record := ⟨0xE0, "", [], .oem, []⟩
    let lines := [Line.format .epoch ⟨2⟩ note, Line.format .epoch ⟨65533⟩ note]
    let disk : Disk := ⟨.epoch, 1, [([], .directory .epoch), (["log"], .directory .epoch),
      (["log", "sel"], .file 0 (bytesOf (textOfLines lines)) .epoch)]⟩
    let ops : List LogOp := [.append .epoch note, .append .epoch note]
    ∃ start log stored, Log.open config disk = .ok start ∧
      start.run ops = .ok ([.appended ⟨65534⟩, .appended ⟨1⟩], log) ∧
      log.lines = .ok stored ∧ (stored.filterMap Line.recordId?).Nodup := by
  intro config note lines disk ops
  have hanswers : (Log.open config disk >>= fun log => (log.run ops).map (·.1))
      = .ok [.appended ⟨65534⟩, .appended ⟨1⟩] := by
    decide +kernel
  have hstored : (Log.open config disk >>= Log.lines) = .ok lines := by decide +kernel
  have hreuses : (Log.open config disk).map (fun log => log.reuses ops) = .ok false := by
    decide +kernel
  have hlist : disk.list config.directory = .ok ["sel"] := by decide +kernel
  have hdistinct : (lines.filterMap Line.recordId?).Nodup := by decide +kernel
  have hsettled : ∀ line ∈ lines, line.getLast? ≠ some '\r' := by decide +kernel
  obtain ⟨start, log, hopen, hrun⟩ := exists_run hanswers
  rw [hopen] at hstored hreuses
  obtain ⟨-, hrest⟩ := reuse_only_behind_last (by decide : IsFileName config.logName)
    (by decide : (1 : Nat) < Text.wordLimit) hlist (List.nodup_singleton _) hopen hstored hdistinct
    (fun line hline => isSettled_of_ne (hsettled line hline)) hrun
  obtain ⟨stored, hlines, hnodup, -⟩ := hrest (Except.ok.inj hreuses)
  exact ⟨start, log, stored, hopen, hrun, hlines, hnodup⟩

/-- The counter starts again at 1 even if a record has that number. -/
theorem reuse_behind_last :
    let config : StoreConfig := ⟨⟨"/log"⟩, "sel", ⟨"/erased"⟩, 0, 1⟩
    let note : Record := ⟨0xE0, "", [], .oem, []⟩
    let lines := [Line.format .epoch ⟨1⟩ note, Line.format .epoch ⟨65534⟩ note]
    let disk : Disk := ⟨.epoch, 1, [([], .directory .epoch), (["log"], .directory .epoch),
      (["log", "sel"], .file 0 (bytesOf (textOfLines lines)) .epoch)]⟩
    ∃ start log, Log.open config disk = .ok start ∧ start.lines = .ok lines ∧
      lines.filterMap Line.recordId? = [⟨1⟩, ⟨65534⟩] ∧
      start.run [.append .epoch note] = .ok ([.appended ⟨1⟩], log) := by
  intro config note lines disk
  have hanswers : (Log.open config disk >>= fun log => (log.run [.append .epoch note]).map (·.1))
      = .ok [.appended ⟨1⟩] := by
    decide +kernel
  have hstored : (Log.open config disk >>= Log.lines) = .ok lines := by decide +kernel
  have hids : lines.filterMap Line.recordId? = [⟨1⟩, ⟨65534⟩] := by decide +kernel
  obtain ⟨start, log, hopen, hrun⟩ := exists_run hanswers
  rw [hopen] at hstored
  exact ⟨start, log, hopen, hstored, hids, hrun⟩

end Log

end EventLog
