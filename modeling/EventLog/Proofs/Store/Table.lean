import EventLog.Proofs.Store.Lines
import EventLog.Proofs.Store.Names

/-!
# EventLog.Proofs.Store.Table

The directory of a log as a table, and what reading it gives.

* `Readable`: every file of the log is a text with a name that is not too long;
* `linesAt`: the stored lines of what stands under a name;
* `run_files`, `run_allLines`: finding the files and reading them.
-/

namespace EventLog

open Disk (StandsAt Turns Table)
open Step

theorem run_at {α : Type} (path : Path) (step : DiskM α) (disk : Disk) :
    (StoreM.at path step).run disk =
      match step.run disk with
      | (.ok a, next) => (.ok a, next)
      | (.error cause, next) => (.error ⟨path, cause⟩, next) := by
  rcases h : step.run disk with ⟨_ | _, next⟩ <;>
    simp only [StoreM.at, ExceptT.run, ExceptT.mk, bind, StateT.bind] at h ⊢ <;>
    rw [h] <;> rfl

/-- Naming the path of a failure changes no success. -/
theorem run_at_eq_ok {α : Type} {path : Path} {step : DiskM α} {disk next : Disk} {a : α} :
    (StoreM.at path step).run disk = (.ok a, next) ↔ step.run disk = (.ok a, next) := by
  rw [run_at]
  rcases step.run disk with ⟨_ | _, last⟩
  · exact ⟨fun h => (by cases h), fun h => (by cases h)⟩
  · exact ⟨fun h => (by cases h; rfl), fun h => (by cases h; rfl)⟩

/-- A file with a text stands under a name that can be walked along. -/
structure IsTextFile (name : String) (node : Node) : Prop where
  fits : name.utf8ByteSize ≤ Disk.nameLimit
  text : ∃ number text time, node = .file number (bytesOf text) time

theorem IsTextFile.isDirectory {name : String} {node : Node} (h : IsTextFile name node) :
    node.isDirectory = false := by
  obtain ⟨number, text, time, rfl⟩ := h.text
  rfl

/-- The stored lines of what stands under a name; none if it is no text. -/
def linesAt : Option Node → List (List Char)
  | some (.file _ bytes _) => (String.fromUTF8? bytes).elim [] fun text => storedLines text.toList
  | _ => []

/-- The lines of a file are those of its text. -/
@[simp] theorem linesAt_file (number : Nat) (text : List Char) (time : Timestamp) :
    linesAt (some (.file number (bytesOf text) time)) = storedLines text := by
  have hback : String.fromUTF8? (bytesOf text) = some (String.ofList text) :=
    (Disk.fromUTF8?_eq_some).mpr rfl
  simp [linesAt, hback]

/-- What stands under a name has a text; nothing has the empty one. -/
def HasText (node? : Option Node) (text : List Char) : Prop :=
  node? = none ∧ text = [] ∨ ∃ number time, node? = some (.file number (bytesOf text) time)

theorem HasText.linesAt_eq {node? : Option Node} {text : List Char} (h : HasText node? text) :
    linesAt node? = storedLines text := by
  obtain ⟨rfl, rfl⟩ | ⟨number, time, rfl⟩ := h
  · rfl
  · exact linesAt_file number text time

theorem HasText.bytesIn_eq {node? : Option Node} {text : List Char} (h : HasText node? text) :
    Disk.bytesIn node? = bytesOf text := by
  obtain ⟨rfl, rfl⟩ | ⟨number, time, rfl⟩ := h <;> rfl

namespace StoreConfig

variable {config : StoreConfig} {place : Place} {disk next : Disk} {name : String}

/-- Every file of the log can be read. -/
def Readable (config : StoreConfig) (table : Table) : Prop :=
  ∀ name, config.IsLogFile name → ∀ node, table name = some node → IsTextFile name node

/-- What can be read under a name of the log is text, or nothing. -/
theorem Readable.hasText {table : Table} (h : config.Readable table)
    (hname : config.IsLogFile name) : ∃ text, HasText (table name) text := by
  cases hnode : table name with
  | none => exact ⟨[], .inl ⟨rfl, rfl⟩⟩
  | some node =>
    obtain ⟨number, text, time, rfl⟩ := (h name hname node hnode).text
    exact ⟨text, .inr ⟨number, time, rfl⟩⟩

/-- A text file in the directory is read as its lines. -/
theorem run_readLines_join {dir : Path} (hs : StandsAt dir place disk) (hn : IsFileName name)
    {node : Node} (hc : disk.children place name = some node) (ht : IsTextFile name node) :
    (readLines (dir.join name)).run disk = (.ok (linesAt (disk.children place name)), disk) := by
  obtain ⟨number, text, time, rfl⟩ := ht.text
  refine run_readLines_eq_ok.mpr ⟨rfl, text, ?_, by rw [hc, linesAt_file]⟩
  exact (Disk.read_join_eq_ok hs hn).mpr ⟨ht.fits, number, time, hc⟩

/-! ## Finding the files -/

/-- The names of the files of the log that are in the directory. -/
def logNames (config : StoreConfig) (disk : Disk) (place : Place) : List String :=
  config.filesAmong (disk.namesAt place)

/-- The files of the log are found by the names in the directory. -/
theorem run_files (hs : StandsAt config.directory place disk) :
    config.files.run disk =
      (.ok ((config.logNames disk place).map config.directory.join), disk) := by
  rw [files, run_bind_of_ok (run_get disk), Disk.list_eq hs]
  rfl

theorem mem_logNames :
    name ∈ config.logNames disk place ↔
      (disk.children place name).isSome ∧ config.IsLogFile name := by
  rw [logNames, mem_filesAmong, Disk.mem_namesAt]

theorem run_mapM_readLines (hs : StandsAt config.directory place disk)
    (hlog : IsFileName config.logName) (hr : config.Readable (disk.children place))
    {names : List String} (hnames : ∀ name ∈ names, name ∈ config.logNames disk place) :
    ((names.map config.directory.join).mapM fun file => StoreM.at file (readLines file)).run disk =
      (.ok (names.map fun name => linesAt (disk.children place name)), disk) := by
  induction names with
  | nil => rfl
  | cons name names ih =>
    obtain ⟨hsome, hfile⟩ := mem_logNames.mp (hnames name List.mem_cons_self)
    obtain ⟨node, hnode⟩ := Option.isSome_iff_exists.mp hsome
    have hread := run_readLines_join hs (isFileName_of_isLogFile hlog hfile) hnode
      (hr name hfile node hnode)
    rw [List.map_cons, List.mapM_cons, run_bind_of_ok (run_at_eq_ok.mpr hread),
      run_bind_of_ok (ih fun n hn => hnames n (List.mem_cons_of_mem name hn))]
    rfl

/-- All lines of some files of the log. -/
theorem run_linesIn (hs : StandsAt config.directory place disk)
    (hlog : IsFileName config.logName) (hr : config.Readable (disk.children place))
    {names : List String} (hnames : ∀ name ∈ names, name ∈ config.logNames disk place) :
    (linesIn (names.map config.directory.join)).run disk =
      (.ok (names.flatMap fun name => linesAt (disk.children place name)), disk) := by
  rw [linesIn, run_bind_of_ok (run_mapM_readLines hs hlog hr hnames), List.flatMap_def]
  rfl

/-- All stored lines of a log, the oldest first. -/
def allLines (config : StoreConfig) : StoreM (List (List Char)) := do
  linesIn (← config.files).reverse

/-- All lines are read from the oldest file to the active one. -/
theorem run_allLines (hs : StandsAt config.directory place disk)
    (hlog : IsFileName config.logName) (hr : config.Readable (disk.children place)) :
    config.allLines.run disk =
      (.ok ((config.logNames disk place).reverse.flatMap fun name =>
        linesAt (disk.children place name)), disk) := by
  rw [allLines, run_bind_of_ok (run_files hs), ← List.map_reverse]
  exact run_linesIn hs hlog hr fun name hname => List.mem_reverse.mp hname

/-- Files whose lines were all read can be read. -/
theorem isTextFile_of_run_mapM (hs : StandsAt config.directory place disk) {names : List String}
    (hplain : ∀ name ∈ names, IsFileName name) {lines : List (List (List Char))}
    (h : ((names.map config.directory.join).mapM fun file =>
      StoreM.at file (readLines file)).run disk = (.ok lines, next)) :
    ∀ name ∈ names, ∀ node, disk.children place name = some node → IsTextFile name node := by
  induction names generalizing lines with
  | nil => exact fun _ hm => absurd hm List.not_mem_nil
  | cons name names ih =>
    rw [List.map_cons, List.mapM_cons] at h
    obtain ⟨first, middle, hfirst, h⟩ := run_bind_eq_ok.mp h
    obtain ⟨hmiddle, text, hread, -⟩ := run_readLines_eq_ok.mp (run_at_eq_ok.mp hfirst)
    rw [hmiddle] at h
    obtain ⟨others, last, hothers, h⟩ := run_bind_eq_ok.mp h
    cases h
    obtain ⟨hfits, number, time, hfile⟩ :=
      (Disk.read_join_eq_ok hs (hplain name List.mem_cons_self)).mp hread
    refine List.forall_mem_cons.mpr ⟨fun node hnode => ?_,
      ih (fun n hn => hplain n (List.mem_cons_of_mem name hn)) hothers⟩
    rw [hfile, Option.some.injEq] at hnode
    exact ⟨hfits, number, text, time, hnode.symm⟩

/-- The files of a log can be read if all its lines were. -/
theorem readable_of_run_allLines (hs : StandsAt config.directory place disk)
    (hlog : IsFileName config.logName) {lines : List (List Char)}
    (h : config.allLines.run disk = (.ok lines, next)) : config.Readable (disk.children place) := by
  rw [allLines, run_bind_of_ok (run_files hs), linesIn, ← List.map_reverse] at h
  obtain ⟨found, middle, hfound, -⟩ := run_bind_eq_ok.mp h
  intro name hname node hnode
  refine isTextFile_of_run_mapM hs (fun n hn => ?_) hfound name ?_ node hnode
  · exact isFileName_of_isLogFile hlog (mem_logNames.mp (List.mem_reverse.mp hn)).2
  · rw [List.mem_reverse, mem_logNames, hnode]
    exact ⟨rfl, hname⟩

theorem run_modifiedTime (path : Path) (disk : Disk) :
    (modifiedTime path).run disk =
      match disk.modified path with
      | .ok time => (.ok (some time), disk)
      | .error .noEntry => (.ok none, disk)
      | .error cause => (.error ⟨path, cause⟩, disk) := by
  rw [modifiedTime, run_bind_of_ok (run_get disk)]
  cases disk.modified path with
  | ok time => rfl
  | error cause => cases cause <;> rfl

/-- The time of a file's last change can be told, whether or not the file is there. -/
theorem run_modifiedTime_join {dir : Path} (hs : StandsAt dir place disk) (hn : IsFileName name)
    (hfits : name.utf8ByteSize ≤ Disk.nameLimit) :
    ∃ time?, (modifiedTime (dir.join name)).run disk = (.ok time?, disk) := by
  rw [run_modifiedTime, Disk.modified, Disk.stat_join hs hn, if_neg (by omega)]
  cases disk.children place name with
  | none => exact ⟨none, rfl⟩
  | some node => cases node <;> exact ⟨_, rfl⟩

/-! ## Removing a file -/

/-- A removal that succeeded leaves nothing under the name. -/
theorem removeIfPresent_ok {dir : Path} (hs : StandsAt dir place disk) (hn : IsFileName name)
    (h : (removeIfPresent (dir.join name)).run disk = (.ok (), next)) :
    Turns place disk next (Function.update (disk.children place) name none) := by
  rw [removeIfPresent, run_at_eq_ok, run_tryCatch] at h
  rcases hremove : (Disk.removeFile (dir.join name)).run disk with ⟨cause | _, last⟩
  · rw [hremove] at h
    have hcause : cause = .noEntry := by
      cases cause <;> first | rfl | cases h
    subst hcause
    cases h
    rw [Disk.run_removeFile_join hs hn] at hremove
    split at hremove
    · cases hremove
    · split at hremove
      · next hnone =>
        cases hremove
        have hsame : Function.update (disk.children place) name none = disk.children place := by
          rw [← hnone, Function.update_eq_self]
        rw [hsame]
        exact Turns.refl place disk
      · cases hremove
      · cases hremove
  · rw [hremove] at h
    cases h
    exact Disk.removeFile_ok hs hn hremove

end StoreConfig

end EventLog
