import EventLog.Proofs.Disk.Frame
import EventLog.Proofs.Store.Table

/-!
# EventLog.Proofs.Store.Removal

What deleting, clearing and opening do to the directory of a log.

* `deleteFrom_ok`: the first file that holds the record is written anew without it;
* `removeAll_ok`: the files of the log go, and nothing else does;
* `touchMarker_keeps`: stamping the erase marker, wherever it lies, leaves the
  directory where it is;
* `run_open`: opening changes nothing, and numbers from the lines that are there.
-/

namespace EventLog

open Disk (StandsAt Turns Table Grows)
open Step

namespace StoreConfig

variable {config : StoreConfig} {place : Place} {disk next : Disk} {name : String}

/-! ## Writing a file anew -/

/-- A rewrite that succeeded leaves the new lines under the name, and no draft. -/
theorem replaceLines_ok (hs : StandsAt config.directory place disk)
    (hlog : IsFileName config.logName) (hname : config.IsLogFile name)
    {lines : List (List Char)}
    (h : (config.replaceLines (config.directory.join name) lines).run disk = (.ok (), next)) :
    ∃ number time, Turns place disk next
      (Function.update (Function.update (disk.children place) (draftName name) none) name
        (some (.file number (bytesOf (textOfLines lines)) time))) := by
  have hplain := isFileName_of_isLogFile hlog hname
  have hdraft := isFileName_draftName hplain
  have hne : draftName name ≠ name := fun e => not_isLogFile_draftName hname (by rwa [e])
  rw [replaceLines, draftOf_join hs.text_ne hplain] at h
  obtain ⟨time, start, hlook, hrest⟩ := run_bind_eq_ok.mp h
  obtain ⟨-, hstart⟩ := Disk.run_look_eq_ok.mp (run_at_eq_ok.mp hlook)
  rw [hstart] at hrest
  obtain ⟨_, disk₁, hcreate, hrest⟩ := run_bind_eq_ok.mp hrest
  obtain ⟨_, disk₂, hrename, hset⟩ := run_bind_eq_ok.mp hrest
  obtain ⟨number, hturns₁⟩ := Disk.create_ok hs hdraft (run_at_eq_ok.mp hcreate)
  have hs₁ := hs.turn hturns₁
  obtain ⟨-, node, hnode, hturns₂⟩ := Disk.rename_ok hs₁ hdraft hplain hne
    (fun node hnode => by
      rw [hturns₁.children, Function.update_self, Option.some.injEq] at hnode
      exact hnode ▸ rfl) (run_at_eq_ok.mp hrename)
  rw [hturns₁.children, Function.update_self, Option.some.injEq] at hnode
  subst hnode
  rw [hturns₁.children, Function.update_idem] at hturns₂
  obtain ⟨number', bytes, old, hfile, hturns₃⟩ :=
    Disk.setModified_ok (hs₁.turn hturns₂) hplain (run_at_eq_ok.mp hset)
  rw [hturns₂.children, Function.update_self, Option.some.injEq, Node.file.injEq] at hfile
  obtain ⟨rfl, rfl, -⟩ := hfile
  rw [hturns₂.children, Function.update_idem] at hturns₃
  exact ⟨number, time, (hturns₁.trans hturns₂).trans hturns₃⟩

/-- **Deleting** writes the first file that holds the record anew, without its lines. -/
theorem deleteFrom_ok (hs : StandsAt config.directory place disk)
    (hlog : IsFileName config.logName) (hr : config.Readable (disk.children place)) {id : RecordId}
    {names : List String} (hnames : ∀ name ∈ names, name ∈ config.logNames disk place)
    {found : Bool}
    (h : (config.deleteFrom id (names.map config.directory.join)).run disk = (.ok found, next)) :
    found = false ∧ next = disk ∧
        (∀ name ∈ names, (linesAt (disk.children place name)).any (hasId id) = false) ∨
      found = true ∧ ∃ before name after number time, names = before ++ name :: after ∧
        (∀ other ∈ before, (linesAt (disk.children place other)).any (hasId id) = false) ∧
        (linesAt (disk.children place name)).any (hasId id) = true ∧
        Turns place disk next
          (Function.update (Function.update (disk.children place) (draftName name) none) name
            (some (.file number (bytesOf (textOfLines ((linesAt (disk.children place name)).filter
              fun line => !hasId id line))) time))) := by
  induction names with
  | nil =>
    cases h
    exact .inl ⟨rfl, rfl, fun _ hm => absurd hm List.not_mem_nil⟩
  | cons name names ih =>
    obtain ⟨hsome, hfile⟩ := mem_logNames.mp (hnames name List.mem_cons_self)
    obtain ⟨node, hnode⟩ := Option.isSome_iff_exists.mp hsome
    have hread := run_readLines_join hs (isFileName_of_isLogFile hlog hfile) hnode
      (hr name hfile node hnode)
    rw [List.map_cons, deleteFrom, run_bind_of_ok (run_at_eq_ok.mpr hread)] at h
    cases hany : (linesAt (disk.children place name)).any (hasId id) with
    | true =>
      rw [if_pos hany] at h
      obtain ⟨_, last, hreplace, h⟩ := run_bind_eq_ok.mp h
      cases h
      obtain ⟨number, time, hturns⟩ := replaceLines_ok hs hlog hfile hreplace
      exact .inr ⟨rfl, [], name, names, number, time, rfl, by simp, hany, hturns⟩
    | false =>
      rw [hany] at h
      rcases ih (fun n hn => hnames n (List.mem_cons_of_mem name hn)) h with
        ⟨rfl, rfl, hnone⟩ | ⟨rfl, before, found, after, number, time, rfl, hbefore, hfound, hturns⟩
      · exact .inl ⟨rfl, rfl, List.forall_mem_cons.mpr ⟨hany, hnone⟩⟩
      · exact .inr ⟨rfl, name :: before, found, after, number, time, rfl,
          List.forall_mem_cons.mpr ⟨hany, hbefore⟩, hfound, hturns⟩

/-! ## Removing all files -/

/-- A removal that succeeded leaves none of the files named. -/
theorem removeAll_ok (hs : StandsAt config.directory place disk) {names : List String}
    (hnames : ∀ name ∈ names, IsFileName name)
    (h : ((names.map config.directory.join).forM removeIfPresent).run disk = (.ok (), next)) :
    Turns place disk next fun name => if name ∈ names then none else disk.children place name := by
  induction names generalizing disk with
  | nil =>
    cases h
    simpa using Turns.refl place next
  | cons name names ih =>
    obtain ⟨_, middle, hremove, h⟩ := run_bind_eq_ok.mp h
    have hturns := removeIfPresent_ok hs (hnames name List.mem_cons_self) hremove
    have hrest := ih (hs.turn hturns) (fun n hn => hnames n (List.mem_cons_of_mem name hn)) h
    have htable : (fun other => if other ∈ name :: names then none else disk.children place other)
        = fun other => if other ∈ names then none else middle.children place other := by
      funext other
      rw [hturns.children]
      by_cases hother : other = name <;> simp [hother]
    rw [htable]
    exact hturns.trans hrest

/-! ## The erase marker -/

/-- Whatever could be reached still can, and no name of a directory comes twice. -/
def Stays (place : Place) (start disk : Disk) : Prop :=
  Grows start disk ∧ (disk.namesAt place).Nodup

variable {start : Disk} {path : Path}

theorem Stays.put (h : Stays place start disk) {other : Place}
    (ho : ¬ disk.IsDirectoryAt other) (node : Node) : Stays place start (disk.put other node) :=
  ⟨h.1.trans (Disk.grows_put ho node), Disk.nodup_namesAt_put h.2 other node⟩

theorem Stays.stamp (h : Stays place start disk) (other : Place) :
    Stays place start (disk.stamp other) :=
  ⟨h.1.trans (Disk.grows_stamp disk other), Disk.nodup_namesAt_stamp h.2 other⟩

theorem not_isDirectoryAt_of_none {other : Place} (h : disk.get? other = none) :
    ¬ disk.IsDirectoryAt other := fun ⟨time, ht⟩ => by simp [h] at ht

/-- Writing leaves all in reach that was. -/
theorem write_keeps (update : ByteArray → ByteArray) :
    Keeps (Stays place start) (Disk.write path update) := by
  intro disk h
  rw [Disk.write, run_bind_of_ok (run_get disk), run_bind, Disk.run_look]
  cases disk.locate path with
  | error e => exact h
  | ok other =>
    cases hnode : disk.get? other with
    | none =>
      have hput (node : Node) : Stays place start
          (({ disk with nextFile := disk.nextFile + 1 } : Disk).put other node) :=
        ⟨h.1.trans (Disk.grows_put (not_isDirectoryAt_of_none hnode) node),
          Disk.nodup_namesAt_put h.2 other node⟩
      simp only [hnode]
      split
      · exact h
      · split
        · exact (hput _).stamp _
        · exact h
        · exact h
    | some node =>
      cases node with
      | file number bytes time =>
        simp only [hnode]
        split
        · exact h
        · exact h.put (Disk.not_isDirectoryAt_of_node hnode rfl) _
      | directory time =>
        simp only [hnode]
        exact h
      | socket =>
        simp only [hnode]
        exact h

/-- Setting a time leaves all in reach that was. -/
theorem setModified_keeps (time : Timestamp) :
    Keeps (Stays place start) (Disk.setModified path time) := by
  intro disk h
  rw [Disk.setModified, run_bind_of_ok (run_get disk), run_bind, Disk.run_look]
  cases hfind : disk.find path with
  | error e => exact h
  | ok found =>
    obtain ⟨other, node⟩ := found
    cases node with
    | file number bytes old =>
      exact h.put (Disk.not_isDirectoryAt_of_node (Disk.find_eq_ok hfind).2 rfl) _
    | directory old => exact h
    | socket => exact h

/-- Making a directory leaves all in reach that was. -/
theorem makeDirectory_keeps : Keeps (Stays place start) (Disk.makeDirectory path) := by
  intro disk h
  rw [Disk.makeDirectory, run_bind_of_ok (run_get disk), run_bind, Disk.run_look]
  cases disk.locate path with
  | error e => exact h
  | ok other =>
    cases hnode : disk.get? other with
    | some node =>
      simp only [hnode]
      exact h
    | none =>
      simp only [hnode]
      split
      · exact (h.put (not_isDirectoryAt_of_none hnode) _).stamp _
      · exact h
      · exact h

/-- Naming the path of a failure keeps what the step keeps. -/
theorem at_keeps {α : Type} {I : Disk → Prop} {step : DiskM α} (h : Keeps I step) :
    Keeps I (StoreM.at path step) := by
  intro disk hI
  have hstep := h disk hI
  rw [run_at]
  rcases hrun : step.run disk with ⟨_ | _, next⟩ <;> rw [hrun] at hstep <;> exact hstep

/-- Stamping the erase marker, wherever it lies, leaves a directory where it is. -/
theorem touchMarker_keeps (time : Timestamp) :
    Keeps (Stays place start) (config.touchMarker time) := by
  have hmarker : Keeps (Stays place start) (do
      StoreM.at config.eraseMarker (Disk.write config.eraseMarker id)
      StoreM.at config.eraseMarker (Disk.setModified config.eraseMarker time.smoothed)) :=
    Keeps.bind (at_keeps (write_keeps id)) fun _ => at_keeps (setModified_keeps _)
  rw [touchMarker]
  split
  · exact Keeps.bind (at_keeps (Disk.makeDirectoriesWithin_keeps
      (fun _ => makeDirectory_keeps) _ _)) fun _ => hmarker
  · exact hmarker

/-! ## Clearing and opening -/

/-- Clearing stamps the erase marker, and then removes the files of the log. -/
theorem clear_eq_ok {store store' : Store} (hs : StandsAt store.config.directory place disk)
    (hlog : IsFileName store.config.logName) {time : Timestamp}
    (h : store.clear time disk = (.ok (), store', next)) :
    store' = { store with allocator := Allocator.fresh } ∧
      ∃ marked, (store.config.touchMarker time).run disk = (.ok (), marked) ∧
        StandsAt store.config.directory place marked ∧
        Turns place marked next fun name =>
          if name ∈ store.config.logNames marked place then none
          else marked.children place name := by
  rw [Store.clear] at h
  split at h
  · next last hrun =>
    cases h
    obtain ⟨_, marked, htouch, hrun⟩ := run_bind_eq_ok.mp hrun
    have hstays : Stays place disk marked := by
      have := @touchMarker_keeps store.config place disk time disk ⟨Grows.refl disk, hs.distinct⟩
      rwa [htouch] at this
    have hmarked := hs.of_grows hstays.1 hstays.2
    rw [run_bind_of_ok (run_files hmarked)] at hrun
    exact ⟨rfl, marked, htouch, hmarked, removeAll_ok hmarked (fun name hname =>
      isFileName_of_isLogFile hlog (mem_logNames.mp hname).2) hrun⟩
  · cases h

/-- **Clearing** leaves no file of the log, and numbers from 1 again. -/
theorem clear_ok {store store' : Store} (hs : StandsAt store.config.directory place disk)
    (hlog : IsFileName store.config.logName) {time : Timestamp}
    (h : store.clear time disk = (.ok (), store', next)) :
    store' = { store with allocator := Allocator.fresh } ∧
      StandsAt store.config.directory place next ∧
      ∀ name, store.config.IsLogFile name → next.children place name = none := by
  obtain ⟨hstore, marked, -, hmarked, hturns⟩ := clear_eq_ok hs hlog h
  refine ⟨hstore, hmarked.turn hturns, fun name hname => ?_⟩
  rw [hturns.children]
  by_cases hm : name ∈ store.config.logNames marked place
  · exact if_pos hm
  · rw [mem_logNames] at hm
    exact (if_neg (by rwa [mem_logNames])).trans (by simpa [hname] using hm)

/-- A log that is opened has no free numbers. -/
theorem open_resumes {store : Store} (h : (Store.open config).run disk = (.ok store, next)) :
    store.config = config ∧ ∃ present, store.allocator = Allocator.resume present := by
  obtain ⟨_, _, -, h⟩ := run_bind_eq_ok.mp h
  obtain ⟨_, _, -, h⟩ := run_bind_eq_ok.mp h
  obtain ⟨_, _, -, h⟩ := run_bind_eq_ok.mp h
  cases h
  exact ⟨rfl, _, rfl⟩

/-- A store that opens in a directory that is there leaves the disk as it was. -/
theorem open_disk_eq (hs : StandsAt config.directory place disk) {store : Store}
    (h : (Store.open config).run disk = (.ok store, next)) : next = disk := by
  rw [Store.open, run_bind_of_ok (run_at_eq_ok.mpr
      (Disk.run_makeDirectories_of_locate hs.located hs.isDirectory)),
    run_bind_of_ok (run_files hs), run_bind_of_ok (run_get disk)] at h
  cases h
  rfl

/-- **Opening** changes nothing, and numbers on from the lines that are there. -/
theorem run_open (hs : StandsAt config.directory place disk) (hlog : IsFileName config.logName)
    (hr : config.Readable (disk.children place)) :
    (Store.open config).run disk = (.ok ⟨config, Allocator.resume
      (((config.logNames disk place).flatMap fun name => linesAt (disk.children place name)).filterMap
        Line.recordId?)⟩, disk) := by
  rw [Store.open, run_bind_of_ok (run_at_eq_ok.mpr
      (Disk.run_makeDirectories_of_locate hs.located hs.isDirectory)),
    run_bind_of_ok (run_files hs), run_bind_of_ok (run_get disk)]
  rw [run_pure, List.flatMap_map]
  refine congrArg (fun lines : List (List Char) =>
    (Except.ok (Store.mk config (Allocator.resume (lines.filterMap Line.recordId?))), disk))
    (List.flatMap_congr fun name hm => ?_)
  obtain ⟨hsome, hname⟩ := mem_logNames.mp hm
  obtain ⟨node, hnode⟩ := Option.isSome_iff_exists.mp hsome
  have hread := run_readLines_join hs (isFileName_of_isLogFile hlog hname) hnode
    (hr name hname node hnode)
  simp only [hread]

end StoreConfig

end EventLog
