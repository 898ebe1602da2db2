import EventLog.Proofs.Store.Run

/-!
# EventLog.Proofs.Store.Shelf

A log that was empty when it was opened, as a shelf: the records of each file,
with the active file first.

* `Shelved`: the directory of a log holds just the files of a shelf;
* `Shelved.add`, `Shelved.remove`: what operations do to the shelf;
* `OnShelf.entries_eq`: the entries are the records of the shelf, oldest first.
-/

namespace EventLog

open Disk (StandsAt Turns Table)
open Step

/-- The records of each file of a log: the active file first, and in every file
the oldest record first. -/
abbrev Shelf := List (List StoredRecord)

namespace Shelf

/-- All records, the oldest first. -/
def records (shelf : Shelf) : List StoredRecord := shelf.reverse.flatten

/-- The bytes of a file of records. -/
def bytes (records : List StoredRecord) : ByteArray :=
  bytesOf (textOfLines (records.map StoredRecord.line))

/-- A file of records is given up before another one is added. -/
def IsFull (config : StoreConfig) (records : List StoredRecord) : Prop :=
  0 < config.maxFileBytes ∧ config.maxFileBytes ≤ (bytes records).size

instance (config : StoreConfig) (records : List StoredRecord) :
    Decidable (IsFull config records) := inferInstanceAs (Decidable (_ ∧ _))

/-- The files that stay when the active one is moved on: all but the oldest,
which stays too as long as there is room for one more file. -/
def moved (config : StoreConfig) (shelf : Shelf) : Shelf :=
  if shelf.length = max config.maxFiles 1 then shelf.dropLast else shelf

/-- Adds a record to the active file, or to a new one if that is full. -/
def add (config : StoreConfig) (stored : StoredRecord) : Shelf → Shelf
  | [] => [[stored]]
  | active :: older =>
    if IsFull config active then [stored] :: moved config (active :: older)
    else (active ++ [stored]) :: older

/-- Removes the records with a number from the first file that has any. -/
def remove (id : RecordId) : Shelf → Shelf
  | [] => []
  | records :: rest =>
    if records.any (·.id = id) then records.filter (·.id ≠ id) :: rest
    else records :: remove id rest

theorem any_records (shelf : Shelf) (p : StoredRecord → Bool) :
    shelf.records.any p = shelf.any (·.any p) := by
  simp [records, List.any_flatten, List.any_reverse]

/-- A full shelf that is moved loses its last file. -/
theorem length_moved (config : StoreConfig) (shelf : Shelf) :
    (moved config shelf).length =
      if shelf.length = max config.maxFiles 1 then shelf.length - 1 else shelf.length := by
  unfold moved
  split
  · exact List.length_dropLast
  · rfl

/-- A full shelf that is moved has room for one file more. -/
theorem length_moved_lt (config : StoreConfig) {shelf : Shelf}
    (h : shelf.length ≤ max config.maxFiles 1) :
    (moved config shelf).length < max config.maxFiles 1 := by
  rw [length_moved]
  split <;> omega

theorem mem_of_mem_moved {config : StoreConfig} {shelf : Shelf} {records : List StoredRecord}
    (h : records ∈ moved config shelf) : records ∈ shelf := by
  unfold moved at h
  split at h
  · exact List.mem_of_mem_dropLast h
  · exact h

/-- A deletion drops the record from the first file that has it. -/
theorem remove_eq_set {id : RecordId} {shelf : Shelf} {k : Nat} (hk : k < shelf.length)
    (hbefore : ∀ i (_ : i < shelf.length), i < k → shelf[i].any (·.id = id) = false)
    (hany : shelf[k].any (·.id = id) = true) :
    remove id shelf = shelf.set k (shelf[k].filter (·.id ≠ id)) := by
  induction shelf generalizing k with
  | nil => simp at hk
  | cons records shelf ih =>
    cases k with
    | zero =>
      have hfirst : records.any (·.id = id) = true := hany
      rw [remove, if_pos hfirst]
      rfl
    | succ k =>
      have hfirst : records.any (·.id = id) = false := hbefore 0 (by simp) (by omega)
      rw [remove, hfirst]
      have hrest := ih (k := k) (by simpa using hk)
        (fun i hi hik => hbefore (i + 1) (by simpa using hi) (by omega)) hany
      simp [hrest]

/-- A deletion of what no file has leaves the shelf as it is. -/
theorem remove_eq_self {id : RecordId} {shelf : Shelf}
    (h : ∀ records ∈ shelf, records.any (·.id = id) = false) : remove id shelf = shelf := by
  induction shelf with
  | nil => rfl
  | cons records shelf ih =>
    rw [remove, h records List.mem_cons_self, ih fun r hr => h r (List.mem_cons_of_mem records hr)]
    rfl

end Shelf

namespace StoreConfig

variable {config : StoreConfig} {place : Place} {disk next : Disk} {shelf : Shelf} {table : Table}

/-- A directory holds the files of a shelf and no other files of the log. -/
structure Shelved (config : StoreConfig) (shelf : Shelf) (table : Table) : Prop where
  file : ∀ i (h : i < shelf.length), ∃ number time,
    table (config.nameAt i) = some (.file number (Shelf.bytes shelf[i]) time)
  absent : ∀ name, config.IsLogFile name → (∀ i < shelf.length, name ≠ config.nameAt i) →
    table name = none
  fits : ∀ i < shelf.length, (config.nameAt i).utf8ByteSize ≤ Disk.nameLimit
  length_le : shelf.length ≤ max config.maxFiles 1
  checked : ∀ records ∈ shelf, ∀ stored ∈ records, Store.checkRecord stored.record = .ok ()

theorem HasWord.max_lt (h : config.HasWord) : max config.maxFiles 1 < Text.wordLimit :=
  Nat.max_lt.mpr ⟨h, by decide⟩

/-- The number of every file of the shelf fits a machine word. -/
theorem Shelved.lt_wordLimit (h : config.Shelved shelf table) (hword : config.HasWord) {i : Nat}
    (hi : i ≤ shelf.length) : i < Text.wordLimit :=
  (hi.trans h.length_le).trans_lt hword.max_lt

/-- A log has only the files of its shelf. -/
theorem Shelved.exists_of_some (h : config.Shelved shelf table) {name : String}
    (hname : config.IsLogFile name) {node : Node} (hnode : table name = some node) :
    ∃ i, i < shelf.length ∧ name = config.nameAt i := by
  by_contra hnone
  push Not at hnone
  simp [h.absent name hname hnone] at hnode

/-- A directory with a shelf can be read. -/
theorem Shelved.readable (h : config.Shelved shelf table) : config.Readable table := by
  intro name hname node hnode
  obtain ⟨i, hi, rfl⟩ := h.exists_of_some hname hnode
  obtain ⟨number, time, hfile⟩ := h.file i hi
  rw [hfile, Option.some.injEq] at hnode
  exact ⟨h.fits i hi, number, _, time, hnode.symm⟩

theorem shelved_nil (h : ∀ name, config.IsLogFile name → table name = none) :
    config.Shelved [] table :=
  ⟨by simp, fun name hname _ => h name hname, by simp, by simp, by simp⟩

/-- The lines of a shelf are such as the log writes. -/
theorem Shelved.isStoredLine (h : config.Shelved shelf table) {records : List StoredRecord}
    (hr : records ∈ shelf) : ∀ line ∈ records.map StoredRecord.line, IsStoredLine line := by
  intro line hline
  obtain ⟨stored, hs, rfl⟩ := List.mem_map.mp hline
  exact isStoredLine_format stored.time stored.id
    (checkRecord_eq_ok.mp (h.checked records hr stored hs))

/-- Each file has the lines of its records. -/
theorem Shelved.linesAt_eq (h : config.Shelved shelf table) {i : Nat} (hi : i < shelf.length) :
    linesAt (table (config.nameAt i)) = shelf[i].map StoredRecord.line := by
  obtain ⟨number, time, hfile⟩ := h.file i hi
  rw [hfile, Shelf.bytes, linesAt_file]
  exact storedLines_textOfLines (h.isStoredLine (List.getElem_mem hi))

/-- The files of a log are found in their order. -/
theorem Shelved.logNames_eq (hs : StandsAt config.directory place disk)
    (h : config.Shelved shelf (disk.children place)) (hword : config.HasWord) :
    config.logNames disk place = (List.range shelf.length).map config.nameAt := by
  have hnumbered := @filesAmong_eq config _ hs.distinct
    ((List.range shelf.length).map fun i => (i, config.nameAt i)) ?_ ?_
  · rw [logNames, hnumbered, List.map_map]
    rfl
  · rw [List.pairwise_map]
    exact List.pairwise_lt_range
  · intro n name
    simp only [List.mem_map, List.mem_range, Prod.mk.injEq]
    constructor
    · rintro ⟨i, hi, rfl, rfl⟩
      obtain ⟨number, time, hfile⟩ := h.file i hi
      rw [Disk.mem_namesAt, hfile]
      exact ⟨rfl, fileIndex?_nameAt config (h.lt_wordLimit hword (by omega))⟩
    · rintro ⟨hm, hindex⟩
      obtain ⟨node, hnode⟩ := Option.isSome_iff_exists.mp (Disk.mem_namesAt.mp hm)
      obtain ⟨i, hi, rfl⟩ := h.exists_of_some (by rw [IsLogFile, hindex]; rfl) hnode
      rw [fileIndex?_nameAt config (h.lt_wordLimit hword (by omega)), Option.some.injEq] at hindex
      exact ⟨i, hi, hindex, hindex ▸ rfl⟩

/-! ## Adding a record -/

theorem bytes_append (records : List StoredRecord) (stored : StoredRecord) :
    bytesOf (textOfLines (records.map StoredRecord.line) ++ (stored.line ++ ['\n']))
      = Shelf.bytes (records ++ [stored]) := by
  simp [Shelf.bytes, textOfLines]

/-- The active file is full by its bytes exactly if it is by its records. -/
theorem isFull_iff (h : config.Shelved shelf table) :
    config.IsFull table ↔ ∃ active older, shelf = active :: older ∧ Shelf.IsFull config active := by
  cases shelf with
  | nil =>
    have hnone := h.absent _ (isLogFile_logName config) (by simp)
    simp [IsFull, hnone]
  | cons active older =>
    obtain ⟨number, time, hfile⟩ := h.file 0 (by simp)
    have hactive : table config.logName = some (.file number (Shelf.bytes active) time) := hfile
    simp [IsFull, Shelf.IsFull, hactive, Node.size]

/-- One file of a shelf that is written anew. -/
theorem Shelved.set (h : config.Shelved shelf table) (hword : config.HasWord) {k : Nat}
    (hk : k < shelf.length) {records : List StoredRecord}
    (hchecked : ∀ stored ∈ records, Store.checkRecord stored.record = .ok ()) (number : Nat)
    (time : Timestamp) :
    config.Shelved (shelf.set k records) (Function.update table (config.nameAt k)
      (some (.file number (Shelf.bytes records) time))) where
  file i hi := by
    rw [List.length_set] at hi
    by_cases he : i = k
    · subst he
      exact ⟨number, time, by simp⟩
    · have hne : config.nameAt i ≠ config.nameAt k :=
        nameAt_ne (h.lt_wordLimit hword hi.le) (h.lt_wordLimit hword hk.le) he
      rw [Function.update_of_ne hne, List.getElem_set_ne (Ne.symm he)]
      exact h.file i hi
  absent name hname hall := by
    rw [List.length_set] at hall
    rw [Function.update_of_ne (hall k hk)]
    exact h.absent name hname hall
  fits i hi := h.fits i (by rwa [List.length_set] at hi)
  length_le := by
    rw [List.length_set]
    exact h.length_le
  checked found hfound := by
    rcases List.mem_or_eq_of_mem_set hfound with hm | rfl
    · exact h.checked found hm
    · exact hchecked

/-- A new active file in front of files that were moved on. -/
theorem Shelved.cons {rest : Shelf} (hword : config.HasWord) (hread : config.Readable table)
    (hfile : ∀ i (hi : i < rest.length), ∃ number time,
      table (config.nameAt (i + 1)) = some (.file number (Shelf.bytes rest[i]) time))
    (habsent : ∀ name, config.IsLogFile name → (∀ i ≤ rest.length, name ≠ config.nameAt i) →
      table name = none)
    (hlength : rest.length < max config.maxFiles 1)
    (hchecked : ∀ records ∈ rest, ∀ stored ∈ records, Store.checkRecord stored.record = .ok ())
    (hfits : config.logName.utf8ByteSize ≤ Disk.nameLimit) {stored : StoredRecord}
    (hcheck : Store.checkRecord stored.record = .ok ()) (number : Nat) (time : Timestamp) :
    config.Shelved ([stored] :: rest) (Function.update table config.logName
      (some (.file number (Shelf.bytes [stored]) time))) := by
  have hlimit : max config.maxFiles 1 < Text.wordLimit := hword.max_lt
  have hne {i : Nat} (hi : i < rest.length) : config.nameAt (i + 1) ≠ config.logName :=
    nameAt_ne (m := i + 1) (n := 0) (by omega) (by omega) (by omega)
  refine ⟨?_, ?_, ?_, hlength, List.forall_mem_cons.mpr ⟨by simpa using hcheck, hchecked⟩⟩
  · intro i hi
    cases i with
    | zero => exact ⟨number, time, Function.update_self _ _ _⟩
    | succ i =>
      rw [List.length_cons, Nat.add_lt_add_iff_right] at hi
      rw [Function.update_of_ne (hne hi)]
      exact hfile i hi
  · intro name hname hall
    have hactive : name ≠ config.logName := hall 0 (by simp)
    rw [Function.update_of_ne hactive]
    exact habsent name hname fun i hi => hall i (by rw [List.length_cons]; omega)
  · intro i hi
    cases i with
    | zero => exact hfits
    | succ i =>
      rw [List.length_cons, Nat.add_lt_add_iff_right] at hi
      obtain ⟨number, time, hnode⟩ := hfile i hi
      exact (hread _ (isLogFile_nameAt config (by omega)) _ hnode).fits

/-- What is moved keeps its place among the files. -/
theorem Shelf.moved_getElem {i : Nat} (hi : i < (Shelf.moved config shelf).length) :
    ∃ hlt : i < shelf.length, (Shelf.moved config shelf)[i] = shelf[i] := by
  by_cases hlast : shelf.length = max config.maxFiles 1
  · simp only [Shelf.moved, if_pos hlast] at hi ⊢
    rw [List.length_dropLast] at hi
    exact ⟨by omega, List.getElem_dropLast _⟩
  · simp only [Shelf.moved, if_neg hlast] at hi ⊢
    exact ⟨hi, trivial⟩

/-- The files of a shelf stand one place further once they were moved on. -/
theorem Shelved.moved (h : config.Shelved shelf table) (hword : config.HasWord) {table' : Table}
    (hrotated : config.Rotated table table') :
    (∀ i (hi : i < (Shelf.moved config shelf).length), ∃ number time,
      table' (config.nameAt (i + 1))
        = some (.file number (Shelf.bytes (Shelf.moved config shelf)[i]) time)) ∧
    ∀ name, config.IsLogFile name →
      (∀ i ≤ (Shelf.moved config shelf).length, name ≠ config.nameAt i) → table' name = none := by
  have hlength := Shelf.length_moved_lt config h.length_le
  have hlimit : max config.maxFiles 1 < Text.wordLimit := hword.max_lt
  constructor
  · intro i hi
    obtain ⟨hlt, heq⟩ := Shelf.moved_getElem hi
    rw [hrotated.moved i (by omega), heq]
    exact h.file i hlt
  · intro name hname hall
    by_cases hnew : ∃ j, j < max config.maxFiles 1 ∧ name = config.nameAt j
    · obtain ⟨j, hj, rfl⟩ := hnew
      have hbeyond : (Shelf.moved config shelf).length < j := by
        by_contra hle
        exact hall j (by omega) rfl
      obtain ⟨k, rfl⟩ : ∃ k, j = k + 1 := ⟨j - 1, by omega⟩
      have hk : shelf.length ≤ k := by
        rw [Shelf.length_moved] at hbeyond
        split at hbeyond <;> omega
      rw [hrotated.moved k (by omega)]
      exact h.absent _ (isLogFile_nameAt config (by omega)) fun i hi =>
        nameAt_ne (by omega) (h.lt_wordLimit hword hi.le) (by omega)
    · push Not at hnew
      rw [hrotated.other name hnew]
      exact h.absent name hname fun i hi => hnew i (by have := h.length_le; omega)

/-- **A record is added** to the shelf of a log. -/
theorem Shelved.add (h : config.Shelved shelf (disk.children place)) (hword : config.HasWord)
    (hs : StandsAt config.directory place disk) (hlog : IsFileName config.logName)
    {stored : StoredRecord} (hcheck : Store.checkRecord stored.record = .ok ())
    (hwrite : (config.writeLine stored.line).run disk = (.ok (), next)) :
    StandsAt config.directory place next ∧
      config.Shelved (Shelf.add config stored shelf) (next.children place) := by
  obtain ⟨table, text, number, time, hroom, hread, htext, hfits, hturns⟩ :=
    writeLine_ok hword hs hlog h.readable hwrite
  refine ⟨hs.turn hturns, ?_⟩
  rw [hturns.children]
  -- A file that is not there before holds nothing but the record.
  have halone (hactive : table config.logName = none) :
      bytesOf (text ++ (stored.line ++ ['\n'])) = Shelf.bytes [stored] := by
    obtain ⟨-, rfl⟩ | ⟨_, _, hfile⟩ := htext
    · simp [Shelf.bytes, textOfLines]
    · simp [hactive] at hfile
  have hfull := isFull_iff h
  cases shelf with
  | nil =>
    obtain ⟨-, rfl⟩ | ⟨habsurd, -⟩ := hroom
    · rw [halone (h.absent _ (isLogFile_logName config) (by simp))]
      exact Shelved.cons hword hread (by simp) (fun name hname _ => h.absent name hname (by simp))
        (by simp) (by simp) hfits hcheck number time
    · simp [hfull] at habsurd
  | cons active older =>
    rw [Shelf.add]
    split
    · next hactive =>
      obtain ⟨hnot, -⟩ | ⟨-, hrotated⟩ := hroom
      · exact absurd (hfull.mpr ⟨active, older, rfl, hactive⟩) hnot
      · obtain ⟨hfile, habsent⟩ := h.moved hword hrotated
        rw [halone hrotated.active]
        exact Shelved.cons hword hread hfile habsent (Shelf.length_moved_lt config h.length_le)
          (fun records hr => h.checked records (Shelf.mem_of_mem_moved hr)) hfits hcheck number time
    · next hactive =>
      obtain ⟨-, rfl⟩ | ⟨habsurd, -⟩ := hroom
      · obtain ⟨number', time', hfile⟩ := h.file 0 (by simp)
        rw [nameAt_zero] at hfile
        obtain ⟨hnone, -⟩ | ⟨_, _, hsome⟩ := htext
        · simp [hfile] at hnone
        · rw [hsome, Option.some.injEq, Node.file.injEq] at hfile
          have htext : text = textOfLines (active.map StoredRecord.line) := bytesOf_inj.mp hfile.2.1
          have hchecked : ∀ found ∈ active ++ [stored], Store.checkRecord found.record = .ok () := by
            rw [List.forall_mem_append]
            exact ⟨h.checked active List.mem_cons_self, by simpa using hcheck⟩
          rw [htext, bytes_append]
          exact h.set (k := 0) hword (by simp) hchecked number time
      · obtain ⟨first, rest, heq, hfirst⟩ := hfull.mp habsurd
        cases heq
        exact absurd hfirst hactive

/-! ## Removing a record -/

theorem recordId?_line (stored : StoredRecord) : Line.recordId? stored.line = some stored.id :=
  Line.recordId?_format _ _ _

theorem filterMap_recordId?_lines (records : List StoredRecord) :
    (records.map StoredRecord.line).filterMap Line.recordId? = records.map (·.id) := by
  rw [List.filterMap_map, ← List.filterMap_eq_map]
  refine List.filterMap_congr fun stored _ => ?_
  rw [Function.comp_apply, Function.comp_apply, recordId?_line]

/-- The line of a record is found by its id alone. -/
theorem hasId_line (id : RecordId) (stored : StoredRecord) :
    hasId id stored.line = decide (stored.id = id) := by
  rw [hasId, recordId?_line]
  by_cases h : stored.id = id <;> simp [h]

theorem any_hasId_lines (id : RecordId) (records : List StoredRecord) :
    (records.map StoredRecord.line).any (hasId id) = records.any (·.id = id) := by
  rw [List.any_map]
  exact congrArg (records.any ·) (funext fun stored => hasId_line id stored)

/-- The lines that a deletion keeps are those of the records it keeps. -/
theorem filter_lines (id : RecordId) (records : List StoredRecord) :
    (records.map StoredRecord.line).filter (fun line => !hasId id line)
      = (records.filter (·.id ≠ id)).map StoredRecord.line := by
  rw [List.filter_map]
  refine congrArg (List.map _) (List.filter_congr fun stored _ => ?_)
  simp [hasId_line]

/-- A file beside those of the log changes nothing on the shelf. -/
theorem Shelved.update_of_not (h : config.Shelved shelf table) {name : String}
    (hword : config.HasWord) (hname : ¬ config.IsLogFile name) (node? : Option Node) :
    config.Shelved shelf (Function.update table name node?) where
  file i hi := by
    have hne : config.nameAt i ≠ name := by
      rintro rfl
      exact hname (isLogFile_nameAt config (h.lt_wordLimit hword hi.le))
    rw [Function.update_of_ne hne]
    exact h.file i hi
  absent other hother hall := by
    have hne : other ≠ name := fun e => hname (e ▸ hother)
    rw [Function.update_of_ne hne]
    exact h.absent other hother hall
  fits := h.fits
  length_le := h.length_le
  checked := h.checked

/-- **A record is removed** from the shelf of a log. -/
theorem Shelved.remove (h : config.Shelved shelf (disk.children place)) (hword : config.HasWord)
    (hs : StandsAt config.directory place disk) (hlog : IsFileName config.logName) {id : RecordId}
    {found : Bool} (hdelete : (config.deleteFrom id ((config.logNames disk place).map
      config.directory.join)).run disk = (.ok found, next)) :
    found = shelf.records.any (·.id = id) ∧ StandsAt config.directory place next ∧
      config.Shelved (shelf.remove id) (next.children place) := by
  have hnames := h.logNames_eq hs hword
  have hany {i : Nat} (hi : i < shelf.length) :
      (linesAt (disk.children place (config.nameAt i))).any (hasId id) = shelf[i].any (·.id = id) := by
    rw [h.linesAt_eq hi, any_hasId_lines]
  rcases deleteFrom_ok hs hlog h.readable (fun _ hn => hn) hdelete with
    ⟨rfl, rfl, hnone⟩ | ⟨rfl, before, name, after, number, time, heq, hbefore, hfound, hturns⟩
  · have hrecords (records : List StoredRecord) (hr : records ∈ shelf) :
        records.any (·.id = id) = false := by
      obtain ⟨i, hi, rfl⟩ := List.mem_iff_getElem.mp hr
      rw [← hany hi]
      exact hnone _ (by rw [hnames]; exact List.mem_map.mpr ⟨i, List.mem_range.mpr hi, rfl⟩)
    rw [Shelf.remove_eq_self hrecords, Shelf.any_records]
    exact ⟨(List.any_eq_false.mpr fun records hr => by simp [hrecords records hr]).symm, hs, h⟩
  · rw [hnames] at heq
    have hk : before.length < shelf.length := by
      have := congrArg List.length heq
      simp at this
      omega
    have hname : name = config.nameAt before.length := by
      have := congrArg (·[before.length]?) heq
      simpa [hk] using this.symm
    have hbefore_eq : before = (List.range before.length).map config.nameAt := by
      have := congrArg (List.take before.length) heq
      simpa [← List.map_take, List.take_range, Nat.min_eq_left hk.le] using this.symm
    subst hname
    rw [hany hk] at hfound
    have hset := Shelf.remove_eq_set hk (fun i hi hik => by
      rw [← hany hi]
      refine hbefore _ ?_
      rw [hbefore_eq]
      exact List.mem_map.mpr ⟨i, List.mem_range.mpr hik, rfl⟩) hfound
    have hchecked : ∀ stored ∈ shelf[before.length].filter (·.id ≠ id),
        Store.checkRecord stored.record = .ok () := fun stored hstored =>
      h.checked _ (List.getElem_mem hk) stored (List.mem_of_mem_filter hstored)
    have hlogFile := isLogFile_nameAt config (h.lt_wordLimit hword hk.le)
    refine ⟨?_, hs.turn hturns, ?_⟩
    · rw [Shelf.any_records]
      exact (List.any_eq_true.mpr ⟨_, List.getElem_mem hk, hfound⟩).symm
    · rw [hturns.children, hset, h.linesAt_eq hk, filter_lines]
      exact (h.update_of_not hword (not_isLogFile_draftName hlogFile) none).set hword hk hchecked
        number time

/-! ## Reading -/

theorem Shelved.map_linesAt (h : config.Shelved shelf table) :
    ((List.range shelf.length).map config.nameAt).map (fun name => linesAt (table name))
      = shelf.map fun records => records.map StoredRecord.line := by
  refine List.ext_getElem (by simp) fun i hi _ => ?_
  simp only [List.length_map, List.length_range] at hi
  simp [h.linesAt_eq hi]

/-- The lines of all files, the newest file first. -/
theorem Shelved.flatMap_linesAt (h : config.Shelved shelf (disk.children place))
    (hword : config.HasWord) (hs : StandsAt config.directory place disk) :
    ((config.logNames disk place).flatMap fun name => linesAt (disk.children place name))
      = shelf.flatten.map StoredRecord.line := by
  rw [h.logNames_eq hs hword, List.flatMap_def, h.map_linesAt, List.map_flatten]

/-- The lines of a log are those of the records on its shelf. -/
theorem Shelved.run_allLines (h : config.Shelved shelf (disk.children place))
    (hword : config.HasWord) (hs : StandsAt config.directory place disk)
    (hlog : IsFileName config.logName) :
    config.allLines.run disk = (.ok (shelf.records.map StoredRecord.line), disk) := by
  rw [StoreConfig.run_allLines hs hlog h.readable, h.logNames_eq hs hword, List.flatMap_def,
    List.map_reverse, h.map_linesAt, Shelf.records, List.map_flatten, List.map_reverse]

end StoreConfig

/-! ## A log on a shelf -/

/-- A log of a configuration whose directory holds just the files of a shelf. -/
structure Log.OnShelf (config : StoreConfig) (shelf : Shelf) (log : Log) : Prop where
  config_eq : log.store.config = config
  shelved : ∃ place, StandsAt config.directory place log.disk ∧
    config.Shelved shelf (log.disk.children place)

/-- The shelf after an operation that was answered. -/
def Shelf.after (config : StoreConfig) (shelf : Shelf) : LogOp → LogAnswer → Shelf
  | .append time record, .appended id => shelf.add config ⟨time, id, record⟩
  | .delete id, _ => shelf.remove id
  | .clear _, _ => []
  | _, _ => shelf

namespace Log

open StoreConfig

variable {config : StoreConfig} {shelf : Shelf} {log next : Log} {answer : LogAnswer}

/-- A log on a shelf reads the lines of the shelf's records. -/
theorem OnShelf.lines_eq (h : log.OnShelf config shelf) (hword : config.HasWord)
    (hlog : IsFileName config.logName) :
    log.lines = .ok (shelf.records.map StoredRecord.line) := by
  obtain ⟨rfl, place, hs, hshelf⟩ := h
  rw [lines, hshelf.run_allLines hword hs hlog]

/-- A log on a shelf has the entries of the shelf's records. -/
theorem OnShelf.entries_eq (h : log.OnShelf config shelf) (hword : config.HasWord)
    (hlog : IsFileName config.logName) :
    log.entries = .ok (entriesOf (shelf.records.map StoredRecord.line)) := by
  obtain ⟨rfl, place, hs, hshelf⟩ := h
  exact Log.entries_eq (hshelf.run_allLines hword hs hlog)

/-- A log can be opened in an empty directory.  It has an empty shelf there. -/
theorem open_of_list_nil {disk : Disk} (hlog : IsFileName config.logName)
    (hempty : disk.list config.directory = .ok []) :
    Log.open config disk = .ok ⟨⟨config, Allocator.fresh⟩, disk⟩ ∧
      OnShelf config [] ⟨⟨config, Allocator.fresh⟩, disk⟩ := by
  obtain ⟨place, hs, hnames⟩ := Disk.standsAt_of_list hempty List.nodup_nil
  have hnone (name : String) : disk.children place name = none := by
    rw [← Option.not_isSome_iff_eq_none, ← Disk.mem_namesAt, hnames]
    exact List.not_mem_nil
  have hshelf : config.Shelved [] (disk.children place) := shelved_nil fun name _ => hnone name
  refine ⟨?_, rfl, place, hs, hshelf⟩
  rw [Log.open, run_open hs hlog hshelf.readable]
  simp [logNames, hnames, filesAmong, Allocator.resume, Allocator.highest, Allocator.fresh]

/-- A log that is opened in an empty directory has an empty shelf. -/
theorem onShelf_open {disk : Disk} (hlog : IsFileName config.logName)
    (hempty : disk.list config.directory = .ok []) (h : Log.open config disk = .ok log) :
    log.OnShelf config [] ∧ log.store.allocator = Allocator.fresh := by
  obtain ⟨hopen, hshelf⟩ := open_of_list_nil hlog hempty
  cases hopen.symm.trans h
  exact ⟨hshelf, rfl⟩

/-- Every operation acts on the shelf as it does on the log. -/
theorem OnShelf.perform (h : log.OnShelf config shelf) (hword : config.HasWord)
    (hlog : IsFileName config.logName) {op : LogOp} (hop : log.perform op = .ok (answer, next)) :
    next.OnShelf config (shelf.after config op answer) := by
  obtain ⟨rfl, place, hs, hshelf⟩ := h
  cases op with
  | append time record =>
    rcases Log.append_ok hop with ⟨e, -, rfl, rfl⟩ | ⟨hcheck, rfl, hstore, hwrite⟩
    · exact ⟨rfl, place, hs, hshelf⟩
    · obtain ⟨hs', hshelf'⟩ := @Shelved.add _ _ _ _ _ hshelf hword hs hlog ⟨time, _, record⟩
        hcheck hwrite
      exact ⟨by rw [hstore], place, hs', hshelf'⟩
  | delete id =>
    obtain ⟨found, rfl, hdelete, hstore⟩ := Log.delete_ok hs hop
    obtain ⟨-, hs', hshelf'⟩ := hshelf.remove hword hs hlog hdelete
    exact ⟨by rw [hstore]; split <;> rfl, place, hs', hshelf'⟩
  | clear time =>
    obtain ⟨rfl, hclear⟩ := Log.clear_ok hop
    obtain ⟨hstore, hs', hnone⟩ := StoreConfig.clear_ok hs hlog hclear
    exact ⟨by rw [hstore], place, hs', shelved_nil hnone⟩
  | reopen =>
    obtain ⟨rfl, hopen⟩ := Log.reopen_ok hop
    rw [run_open hs hlog hshelf.readable, Prod.mk.injEq, Except.ok.injEq] at hopen
    obtain ⟨hstore, hdisk⟩ := hopen
    exact ⟨by rw [← hstore], place, hdisk ▸ hs, hdisk ▸ hshelf⟩

/-- A log that is opened again numbers on from the records on its shelf. -/
theorem OnShelf.reopen (h : log.OnShelf config shelf) (hword : config.HasWord)
    (hlog : IsFileName config.logName) (hop : log.perform .reopen = .ok (answer, next)) :
    next.store.allocator = Allocator.resume (shelf.flatten.map (·.id)) := by
  obtain ⟨rfl, place, hs, hshelf⟩ := h
  obtain ⟨-, hopen⟩ := Log.reopen_ok hop
  rw [run_open hs hlog hshelf.readable, hshelf.flatMap_linesAt hword hs,
    filterMap_recordId?_lines, Prod.mk.injEq, Except.ok.injEq] at hopen
  rw [← hopen.1]

/-- A deletion is answered by whether the shelf has the record. -/
theorem OnShelf.delete (h : log.OnShelf config shelf) (hword : config.HasWord)
    (hlog : IsFileName config.logName) {id : RecordId}
    (hop : log.perform (.delete id) = .ok (answer, next)) :
    answer = .deleted (shelf.records.any (·.id = id)) ∧
      next.store = if shelf.records.any (·.id = id) then
        { log.store with allocator := (log.store.allocator.release id).2 } else log.store := by
  obtain ⟨rfl, place, hs, hshelf⟩ := h
  obtain ⟨found, rfl, hdelete, hstore⟩ := Log.delete_ok hs hop
  obtain ⟨rfl, -, -⟩ := hshelf.remove hword hs hlog hdelete
  exact ⟨rfl, hstore⟩

/-- How many records are on the shelf, told whenever the erase marker can be looked at. -/
theorem OnShelf.info_eq (h : log.OnShelf config shelf) (hword : config.HasWord)
    (hlog : IsFileName config.logName) (hfits : config.logName.utf8ByteSize ≤ Disk.nameLimit)
    {lastErase : Option Timestamp}
    (hmarker : ((modifiedTime config.eraseMarker).run log.disk).1 = .ok lastErase) :
    ∃ lastAdd, log.info = .ok ⟨shelf.records.length, lastAdd, lastErase⟩ := by
  have hlines := h.lines_eq hword hlog
  obtain ⟨rfl, place, hs, hshelf⟩ := h
  have hcount : numberedIn (shelf.records.map StoredRecord.line) = shelf.records.length := by
    rw [numberedIn, List.filter_eq_self.mpr fun line hline => ?_, List.length_map]
    obtain ⟨stored, -, rfl⟩ := List.mem_map.mp hline
    rw [recordId?_line]
    rfl
  rw [← hcount]
  exact exists_info hs hlog hfits hshelf.readable hlines hmarker

end Log

end EventLog
