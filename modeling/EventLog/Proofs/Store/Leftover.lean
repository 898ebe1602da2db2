import EventLog.Proofs.Store.Growth
import EventLog.Proofs.Store.Readers

/-!
# EventLog.Proofs.Store.Leftover

What rotation does to the files of a directory that it did not build, such as those
left by an earlier limit.

* `leftovers`: the files of a log whose numbers are not below its limit;
* `filesAmong_eq_append`: they are the oldest, whatever their names;
* `run_allLines_of_rotated`: of the others, the one with the last number below the limit
  goes, and the new line comes behind all;
* `rotation_spares_leftovers`: no leftover file is ever removed, so the oldest records
  stay while newer ones go (`leftover_outlives_newer`), and a log without leftover files
  loses only the oldest records.
-/

namespace EventLog

open Disk (StandsAt Turns Table)
open Step

namespace StoreConfig

variable {config : StoreConfig} {place : Place} {disk next : Disk} {names : List String}

/-- A file of the log has a number below the limit. -/
def isBelow (config : StoreConfig) (name : String) : Bool :=
  (config.fileIndex? name).any (· < max config.maxFiles 1)

/-- The files of the log whose numbers are not below the limit, the newest first. -/
def leftovers (config : StoreConfig) (names : List String) : List String :=
  config.filesAmong (names.filter fun name => !config.isBelow name)

/-- Numbers below the limit are written plainly. -/
def PlainBelow (config : StoreConfig) (names : List String) : Prop :=
  ∀ name ∈ names, ∀ n < max config.maxFiles 1, config.fileIndex? name = some n →
    name = config.nameAt n

instance (config : StoreConfig) (names : List String) : Decidable (config.PlainBelow names) :=
  inferInstanceAs (Decidable (∀ name ∈ names, ∀ n < max config.maxFiles 1,
    config.fileIndex? name = some n → name = config.nameAt n))

/-- The numbers of the files that are kept fit a machine word. -/
theorem HasWord.lt_wordLimit (hword : config.HasWord) {n : Nat} (hn : n < max config.maxFiles 1) :
    n < Text.wordLimit := by
  have hlimit : config.maxFiles < Text.wordLimit := hword
  have hone : 1 < Text.wordLimit := by decide
  omega

/-- The names of the files that are kept are among those below the limit. -/
theorem isBelow_nameAt (hword : config.HasWord) {n : Nat} (hn : n < max config.maxFiles 1) :
    config.isBelow (config.nameAt n) = true := by
  rw [isBelow, fileIndex?_nameAt config (hword.lt_wordLimit hn)]
  simpa using hn

/-! ## The order of the files -/

/-- The files below the limit come before the leftover ones. -/
theorem filesAmong_eq_append (names : List String) :
    config.filesAmong names
      = config.filesAmong (names.filter config.isBelow) ++ config.leftovers names := by
  let number (name : String) := (config.fileIndex? name).map fun n => (n, name)
  have hnumber {x : Nat × String} {found : List String} (hx : x ∈ found.filterMap number) :
      x.2 ∈ found ∧ config.fileIndex? x.2 = some x.1 := by
    obtain ⟨name, hname, h⟩ := List.mem_filterMap.mp hx
    obtain ⟨n, hn, rfl⟩ := Option.map_eq_some_iff.mp h
    exact ⟨hname, hn⟩
  suffices hsort : (names.filterMap number).mergeSort precedes
      = ((names.filter config.isBelow).filterMap number).mergeSort precedes
        ++ ((names.filter fun name => !config.isBelow name).filterMap number).mergeSort precedes from
    (congrArg (List.map Prod.snd) hsort).trans List.map_append
  have hperm := (List.filter_append_perm config.isBelow names).symm.filterMap number
  rw [List.filterMap_append] at hperm
  refine mergeSort_eq_of_perm (hperm.trans ((List.mergeSort_perm _ precedes).symm.append
    (List.mergeSort_perm _ precedes).symm)) ?_
  refine List.pairwise_append.mpr ⟨List.pairwise_mergeSort precedes_trans precedes_total _,
    List.pairwise_mergeSort precedes_trans precedes_total _, fun x hx y hy => ?_⟩
  obtain ⟨hx, hxn⟩ := hnumber (List.mem_mergeSort.mp hx)
  obtain ⟨hy, hyn⟩ := hnumber (List.mem_mergeSort.mp hy)
  have hxlt := (List.mem_filter.mp hx).2
  have hyge := (List.mem_filter.mp hy).2
  rw [isBelow, hxn, Option.any_some, decide_eq_true_eq] at hxlt
  rw [isBelow, hyn, Option.any_some, Bool.not_eq_true', decide_eq_false_iff_not] at hyge
  simp only [precedes, Bool.or_eq_true, decide_eq_true_eq]
  exact .inl (by omega)

/-- The files below the limit stand in the order of their numbers. -/
theorem filesAmong_below (hword : config.HasWord) (hnames : names.Nodup)
    (hplain : config.PlainBelow names) :
    config.filesAmong (names.filter config.isBelow)
      = ((List.range (max config.maxFiles 1)).filter fun n => config.nameAt n ∈ names).map
          config.nameAt := by
  let numbered := ((List.range (max config.maxFiles 1)).filter fun n =>
    config.nameAt n ∈ names).map fun n => (n, config.nameAt n)
  have hsorted : numbered.Pairwise fun x y => x.1 < y.1 :=
    List.pairwise_map.mpr (List.pairwise_lt_range.filter _)
  refine (filesAmong_eq (hnames.filter _) hsorted fun n name => ?_).trans
    (by rw [List.map_map]; rfl)
  simp only [numbered, List.mem_map, List.mem_filter, List.mem_range, decide_eq_true_eq,
    Prod.mk.injEq]
  constructor
  · rintro ⟨_, ⟨hn, hmem⟩, rfl, rfl⟩
    exact ⟨⟨hmem, isBelow_nameAt hword hn⟩, fileIndex?_nameAt config (hword.lt_wordLimit hn)⟩
  · rintro ⟨⟨hmem, hbelow⟩, hn⟩
    rw [isBelow, hn, Option.any_some, decide_eq_true_eq] at hbelow
    obtain rfl := hplain name hmem n hbelow hn
    exact ⟨n, ⟨hbelow, hmem⟩, rfl, rfl⟩

theorem flatMap_filter_of_nil {α β : Type} (p : α → Bool) (f : α → List β) {l : List α}
    (h : ∀ a ∈ l, p a = false → f a = []) : (l.filter p).flatMap f = l.flatMap f := by
  induction l with
  | nil => rfl
  | cons a l ih =>
    have hrest := ih fun b hb => h b (List.mem_cons_of_mem a hb)
    cases hp : p a with
    | true => simp [hp, hrest]
    | false => simp [hp, hrest, h a List.mem_cons_self hp]

/-- The lines of a log, the oldest first: those of the leftover files, and then those of
the numbers below the limit. -/
theorem run_allLines_below (hword : config.HasWord) (hs : StandsAt config.directory place disk)
    (hlog : IsFileName config.logName) (hr : config.Readable (disk.children place))
    (hplain : config.PlainBelow (disk.namesAt place)) :
    config.allLines.run disk = (.ok
      (((config.leftovers (disk.namesAt place)).reverse.flatMap fun name =>
          linesAt (disk.children place name)) ++
        (List.range (max config.maxFiles 1)).reverse.flatMap fun n =>
          linesAt (disk.children place (config.nameAt n))), disk) := by
  rw [run_allLines hs hlog hr, logNames, filesAmong_eq_append, List.reverse_append,
    List.flatMap_append, filesAmong_below hword hs.distinct hplain, ← List.map_reverse,
    ← List.filter_reverse, List.flatMap_map, flatMap_filter_of_nil]
  intro n _ hn
  rw [decide_eq_false_iff_not, Disk.mem_namesAt, Option.not_isSome_iff_eq_none] at hn
  rw [hn]
  rfl

/-! ## Rotation -/

variable {table table' : Table}

/-- What stands under the names that are not below the limit stays. -/
theorem Rotated.eq_of_not_isBelow (hword : config.HasWord) (h : config.Rotated table table')
    {name : String} (hname : config.isBelow name = false) : table' name = table name := by
  refine h.other name fun n hn hne => ?_
  rw [hne, isBelow_nameAt hword hn] at hname
  cases hname

/-- After rotation and one more line, the same files are left over. -/
theorem leftovers_turn (hword : config.HasWord) (hs : StandsAt config.directory place disk)
    (hrotated : config.Rotated (disk.children place) table) {node : Node}
    (h : Turns place disk next (Function.update table config.logName (some node))) :
    config.leftovers (next.namesAt place) = config.leftovers (disk.namesAt place) ∧
      ∀ name, config.isBelow name = false →
        next.children place name = disk.children place name := by
  have hlog : config.isBelow config.logName = true := isBelow_nameAt hword (n := 0) (by omega)
  have hsame (name : String) (hname : config.isBelow name = false) :
      next.children place name = disk.children place name := by
    have hne : name ≠ config.logName := by
      rintro rfl
      rw [hlog] at hname
      cases hname
    rw [h.children, Function.update_of_ne hne, hrotated.eq_of_not_isBelow hword hname]
  refine ⟨filesAmong_perm ((List.perm_ext_iff_of_nodup ((hs.turn h).distinct.filter _)
    (hs.distinct.filter _)).mpr fun name => ?_), hsame⟩
  simp only [List.mem_filter, Disk.mem_namesAt, Bool.not_eq_true']
  constructor <;> rintro ⟨hsome, hname⟩
  · exact ⟨by rwa [← hsame name hname], hname⟩
  · exact ⟨by rwa [hsame name hname], hname⟩

/-- Numbers below the limit stay plain. -/
theorem PlainBelow.turn (hword : config.HasWord)
    (hplain : config.PlainBelow (disk.namesAt place))
    (hrotated : config.Rotated (disk.children place) table) {node : Node}
    (h : Turns place disk next (Function.update table config.logName (some node))) :
    config.PlainBelow (next.namesAt place) := by
  intro name hname n hn hindex
  by_cases hnumber : ∃ j < max config.maxFiles 1, name = config.nameAt j
  · obtain ⟨j, hj, rfl⟩ := hnumber
    rw [fileIndex?_nameAt config (hword.lt_wordLimit hj), Option.some.injEq] at hindex
    rw [hindex]
  · have hne (j : Nat) (hj : j < max config.maxFiles 1) : name ≠ config.nameAt j :=
      fun he => hnumber ⟨j, hj, he⟩
    refine hplain name (Disk.mem_namesAt.mpr ?_) n hn hindex
    have hactive : name ≠ config.logName := hne 0 (by omega)
    rwa [Disk.mem_namesAt, h.children, Function.update_of_ne hactive,
      hrotated.other name hne] at hname

theorem flatMap_reverse_range_succ {α : Type} (f : Nat → List α) (n : Nat) :
    (List.range (n + 1)).reverse.flatMap f = f n ++ (List.range n).reverse.flatMap f := by
  rw [List.range_succ, List.reverse_concat, List.flatMap_cons]

theorem flatMap_reverse_range_succ_map {α : Type} (f : Nat → List α) (n : Nat) :
    (List.range (n + 1)).reverse.flatMap f
      = (List.range n).reverse.flatMap (fun i => f (i + 1)) ++ f 0 := by
  rw [List.range_succ_eq_map, List.reverse_cons, List.flatMap_append, ← List.map_reverse,
    List.flatMap_map, List.flatMap_singleton]

/-! ## Files as they are read -/

/-- What can be read under a name of the log is what stands in the directory. -/
theorem Readable.stat_eq_ok (hs : StandsAt config.directory place disk)
    (hlog : IsFileName config.logName) (hr : config.Readable (disk.children place)) {name : String}
    (hname : config.IsLogFile name) {node : Node} :
    disk.stat (config.directory.join name) = .ok node ↔ disk.children place name = some node := by
  rw [Disk.stat_join hs (isFileName_of_isLogFile hlog hname)]
  split
  · next hlong =>
    refine ⟨fun h => (by cases h), fun h => ?_⟩
    have := (hr name hname node h).fits
    omega
  · cases disk.children place name <;> simp

/-- The lines read by the path are those of the file. -/
theorem linesOn_join (hs : StandsAt config.directory place disk) (hlog : IsFileName config.logName)
    (hr : config.Readable (disk.children place)) {name : String} (hname : config.IsLogFile name) :
    linesOn disk (config.directory.join name) = linesAt (disk.children place name) := by
  have hplain := isFileName_of_isLogFile hlog hname
  cases hnode : disk.children place name with
  | some node =>
    rw [← hnode]
    exact linesOn_of_run (run_readLines_join hs hplain hnode (hr name hname node hnode))
  | none =>
    rcases hrun : (readLines (config.directory.join name)).run disk with ⟨e | lines, last⟩
    · rw [linesOn, hrun]
      rfl
    · obtain ⟨-, text, hread, -⟩ := run_readLines_eq_ok.mp hrun
      obtain ⟨-, number, time, hfile⟩ := (Disk.read_join_eq_ok hs hplain).mp hread
      rw [hnode] at hfile
      cases hfile

/-! ## Rotation and one more line -/

/-- Behind the active file, every number has what the number before it had. -/
theorem children_nameAt_succ (hword : config.HasWord)
    (hrotated : config.Rotated (disk.children place) table) {node : Node}
    (h : Turns place disk next (Function.update table config.logName (some node))) {n : Nat}
    (hn : n + 1 < max config.maxFiles 1) :
    next.children place (config.nameAt (n + 1)) = disk.children place (config.nameAt n) := by
  have hne : config.nameAt (n + 1) ≠ config.nameAt 0 :=
    nameAt_ne (hword.lt_wordLimit hn) (by decide) (by omega)
  rw [nameAt_zero] at hne
  rw [h.children, Function.update_of_ne hne, hrotated.moved n (by omega)]

/-- **The lines before and after rotation**: those of the leftover files stay in front, those
of the last file below the limit go, and the new one comes behind all. -/
theorem run_allLines_of_rotated (hword : config.HasWord)
    (hs : StandsAt config.directory place disk) (hlog : IsFileName config.logName)
    (hr : config.Readable (disk.children place)) (hr' : config.Readable (next.children place))
    (hplain : config.PlainBelow (disk.namesAt place))
    (hrotated : config.Rotated (disk.children place) table) {line : List Char}
    (hline : IsStoredLine line) {number : Nat} {time : Timestamp}
    (h : Turns place disk next (Function.update table config.logName
      (some (.file number (bytesOf (line ++ ['\n'])) time)))) :
    let left := (config.leftovers (disk.namesAt place)).reverse.flatMap fun name =>
      linesOn disk (config.directory.join name)
    let dropped := linesOn disk (config.directory.join (config.nameAt (config.maxFiles - 1)))
    let kept := (List.range (config.maxFiles - 1)).reverse.flatMap fun n =>
      linesOn disk (config.directory.join (config.nameAt n))
    config.allLines.run disk = (.ok (left ++ dropped ++ kept), disk) ∧
      config.allLines.run next = (.ok (left ++ kept ++ [line]), next) := by
  intro left dropped kept
  have hmax : max config.maxFiles 1 = config.maxFiles - 1 + 1 := by omega
  have hleft : left = (config.leftovers (disk.namesAt place)).reverse.flatMap fun name =>
      linesAt (disk.children place name) :=
    List.flatMap_congr fun name hname =>
      linesOn_join hs hlog hr (mem_filesAmong.mp (List.mem_reverse.mp hname)).2
  have hbelow {n : Nat} (hn : n < max config.maxFiles 1) :
      linesOn disk (config.directory.join (config.nameAt n))
        = linesAt (disk.children place (config.nameAt n)) :=
    linesOn_join hs hlog hr (isLogFile_nameAt config (hword.lt_wordLimit hn))
  have hkept : kept = (List.range (config.maxFiles - 1)).reverse.flatMap fun n =>
      linesAt (disk.children place (config.nameAt n)) :=
    List.flatMap_congr fun n hn => hbelow (by simp at hn; omega)
  obtain ⟨hleftovers, hsame⟩ := leftovers_turn hword hs hrotated h
  constructor
  · rw [run_allLines_below hword hs hlog hr hplain, hmax, flatMap_reverse_range_succ,
      hleft, hkept, List.append_assoc]
    simp only [dropped, hbelow (by omega : config.maxFiles - 1 < max config.maxFiles 1)]
  · have hactive : linesAt (next.children place (config.nameAt 0)) = [line] := by
      rw [h.children, nameAt_zero, Function.update_self, linesAt_file, storedLines_line hline]
    have hmoved : (List.range (config.maxFiles - 1)).reverse.flatMap (fun n =>
        linesAt (next.children place (config.nameAt (n + 1)))) = kept := by
      rw [hkept]
      refine List.flatMap_congr fun n hn => ?_
      rw [children_nameAt_succ hword hrotated h (by simp at hn; omega)]
    have holder : ((config.leftovers (next.namesAt place)).reverse.flatMap fun name =>
        linesAt (next.children place name)) = left := by
      rw [hleftovers, hleft]
      refine List.flatMap_congr fun name hname => ?_
      have hnot := (List.mem_filter.mp (mem_filesAmong.mp (List.mem_reverse.mp hname)).1).2
      rw [hsame name (by simpa using hnot)]
    rw [run_allLines_below hword (hs.turn h) hlog hr' (hplain.turn hword hrotated h), hmax,
      flatMap_reverse_range_succ_map, hmoved, hactive, holder, List.append_assoc]

/-- There are no more files than the limit and the leftover ones. -/
theorem length_filesAmong_le (hword : config.HasWord) (hnames : names.Nodup)
    (hplain : config.PlainBelow names) :
    (config.filesAmong names).length
      ≤ max config.maxFiles 1 + (config.leftovers names).length := by
  rw [filesAmong_eq_append, filesAmong_below hword hnames hplain, List.length_append,
    List.length_map]
  have hle := List.length_filter_le (fun n => decide (config.nameAt n ∈ names))
    (List.range (max config.maxFiles 1))
  rw [List.length_range] at hle
  omega

end StoreConfig

namespace Log

open StoreConfig

variable {log next : Log} {place : Place} {time : Timestamp} {record : Record} {id : RecordId}
  {names : List String} {before : List Entry}

/-- An active file without room is full. -/
theorem isFull_of_not_hasRoom (hs : StandsAt log.store.config.directory place log.disk)
    (hlog : IsFileName log.store.config.logName) (h : ¬ log.HasRoom) :
    log.store.config.IsFull (log.disk.children place) := by
  simp only [HasRoom, not_forall, not_or, Nat.not_lt] at h
  obtain ⟨node, hstat, hlimit, hsize⟩ := h
  refine ⟨Nat.pos_of_ne_zero hlimit, node, ?_, hsize⟩
  rw [activeFile, Disk.stat_join hs hlog] at hstat
  split at hstat
  · cases hstat
  · cases hnode : log.disk.children place log.store.config.logName with
    | none =>
      rw [hnode] at hstat
      cases hstat
    | some found =>
      rw [hnode] at hstat
      exact congrArg some (Except.ok.inj hstat)

/-- A full active file is moved on, and the line of the record stands alone in a new one. -/
theorem rotated_of_append (hs : StandsAt log.store.config.directory place log.disk)
    (hname : IsFileName log.store.config.logName) (hword : log.store.config.HasWord)
    (hr : log.store.config.Readable (log.disk.children place)) (hfull : ¬ log.HasRoom)
    (hop : log.perform (.append time record) = .ok (.appended id, next)) :
    record.HasSensorPath ∧ next.store.config = log.store.config ∧
      log.store.config.Readable (next.disk.children place) ∧
      ∃ table number modified, log.store.config.Rotated (log.disk.children place) table ∧
        Turns place log.disk next.disk (Function.update table log.store.config.logName
          (some (.file number (bytesOf (Line.format time id record ++ ['\n'])) modified))) := by
  rcases append_ok hop with ⟨_, -, h, -⟩ | ⟨hcheck, hid, hstore, hwrite⟩
  · cases h
  · cases hid
    obtain ⟨table, text, number, modified, hroom, hread, htext, hfits, hturns⟩ :=
      writeLine_ok hword hs hname hr hwrite
    obtain ⟨hnot, -⟩ | ⟨-, hrotated⟩ := hroom
    · exact absurd (isFull_of_not_hasRoom hs hname hfull) hnot
    · obtain rfl : text = [] := by
        obtain ⟨-, h⟩ | ⟨_, _, h⟩ := htext
        · exact h
        · rw [hrotated.active] at h
          cases h
      refine ⟨checkRecord_eq_ok.mp hcheck, by rw [hstore], ?_, table, number, modified, hrotated,
        hturns⟩
      rw [hturns.children]
      exact hread.update_some ⟨hfits, number, _, modified, rfl⟩

theorem entriesOf_append (lines others : List (List Char)) :
    entriesOf (lines ++ others) = entriesOf lines ++ entriesOf others := List.filterMap_append

/-- The records of a log before and after rotation, the oldest first. -/
theorem entries_of_rotated (hs : StandsAt log.store.config.directory place log.disk)
    (hname : IsFileName log.store.config.logName) (hword : log.store.config.HasWord)
    (hr : log.store.config.Readable (log.disk.children place))
    (hplain : log.store.config.PlainBelow (log.disk.namesAt place)) (hfull : ¬ log.HasRoom)
    (hyear : 0 ≤ time.date.year ∧ time.date.year ≤ 9999)
    (hop : log.perform (.append time record) = .ok (.appended id, next)) :
    let config := log.store.config
    let left := entriesOf ((config.leftovers (log.disk.namesAt place)).reverse.flatMap fun name =>
      linesOn log.disk (config.directory.join name))
    let dropped := entriesOf
      (linesOn log.disk (config.directory.join (config.nameAt (config.maxFiles - 1))))
    let kept := entriesOf ((List.range (config.maxFiles - 1)).reverse.flatMap fun n =>
      linesOn log.disk (config.directory.join (config.nameAt n)))
    log.entries = .ok (left ++ dropped ++ kept) ∧
      next.entries = .ok (left ++ kept ++ [record.entry time id]) := by
  intro config left dropped kept
  obtain ⟨hpath, hconfig, hr', table, number, modified, hrotated, hturns⟩ :=
    rotated_of_append hs hname hword hr hfull hop
  obtain ⟨hbefore, hafter⟩ := run_allLines_of_rotated hword hs hname hr hr' hplain hrotated
    (isStoredLine_format time id hpath) hturns
  rw [← hconfig] at hafter
  constructor
  · rw [Log.entries_eq hbefore, entriesOf_append, entriesOf_append]
  · rw [Log.entries_eq hafter, entriesOf_concat hyear id hpath, entriesOf_append, hconfig]

/-! ## A log with a file too many -/

/-- A note with nothing in it. -/
def note : Record := ⟨0xE0, "", [], .oem, []⟩

/-- A file with the line of a note. -/
def noteFile (id : RecordId) : Node :=
  .file id.toNat (bytesOf (Line.format .epoch id note ++ ['\n'])) .epoch

/-- A log that may have two files, on a disk where it has three. -/
def crowded : Log :=
  ⟨⟨⟨⟨"/log"⟩, "sel", ⟨"/erased"⟩, 1, 2⟩, ⟨⟨3⟩, []⟩⟩,
    ⟨.epoch, 4, [([], .directory .epoch), (["log"], .directory .epoch),
      (["log", "sel.2"], noteFile ⟨1⟩), (["log", "sel.1"], noteFile ⟨2⟩),
      (["log", "sel"], noteFile ⟨3⟩)]⟩⟩

theorem namesAt_crowded : crowded.disk.namesAt ["log"] = ["sel.2", "sel.1", "sel"] := by
  decide +kernel

theorem standsAt_crowded : StandsAt crowded.store.config.directory ["log"] crowded.disk :=
  ⟨by decide +kernel, ⟨.epoch, by simp [crowded, Disk.get?, List.lookup_cons]⟩, by decide +kernel⟩

theorem children_crowded :
    crowded.disk.children ["log"] "sel.2" = some (noteFile ⟨1⟩) ∧
    crowded.disk.children ["log"] "sel.1" = some (noteFile ⟨2⟩) ∧
    crowded.disk.children ["log"] "sel" = some (noteFile ⟨3⟩) := by
  simp [crowded, Disk.children, Disk.get?, List.lookup_cons]

theorem readable_crowded : crowded.store.config.Readable (crowded.disk.children ["log"]) := by
  intro name _ node hnode
  have hname : name ∈ crowded.disk.namesAt ["log"] := by
    rw [Disk.mem_namesAt, hnode]
    rfl
  rw [namesAt_crowded] at hname
  obtain ⟨htwo, hone, hactive⟩ := children_crowded
  simp only [List.mem_cons, List.not_mem_nil, or_false] at hname
  rcases hname with rfl | rfl | rfl
  · exact Option.some.inj (htwo.symm.trans hnode) ▸ ⟨by decide, _, _, _, rfl⟩
  · exact Option.some.inj (hone.symm.trans hnode) ▸ ⟨by decide, _, _, _, rfl⟩
  · exact Option.some.inj (hactive.symm.trans hnode) ▸ ⟨by decide, _, _, _, rfl⟩

/-- The active file of the crowded log is full. -/
theorem not_hasRoom_crowded : ¬ crowded.HasRoom := by
  intro hroom
  have hstat := (readable_crowded.stat_eq_ok standsAt_crowded (by decide)
    (isLogFile_logName _)).mpr children_crowded.2.2
  exact absurd (hroom _ hstat) (by decide +kernel)

theorem plainBelow_crowded : crowded.store.config.PlainBelow (crowded.disk.namesAt ["log"]) := by
  rw [namesAt_crowded]
  decide +kernel

/-- The crowded log opens to itself. -/
theorem open_crowded : Log.open crowded.store.config crowded.disk = .ok crowded := by
  have hword : crowded.store.config.HasWord := (by decide : (2 : Nat) < Text.wordLimit)
  have hnames : crowded.store.config.logNames crowded.disk ["log"] = ["sel", "sel.1", "sel.2"] := by
    rw [logNames, filesAmong_eq_append, filesAmong_below hword standsAt_crowded.distinct
      plainBelow_crowded, namesAt_crowded]
    decide +kernel
  have hresume : Allocator.resume ((["sel", "sel.1", "sel.2"].flatMap fun name =>
      linesAt (crowded.disk.children ["log"] name)).filterMap Line.recordId?) = ⟨⟨3⟩, []⟩ := by
    decide +kernel
  rw [Log.open, run_open standsAt_crowded (by decide) readable_crowded, hnames, hresume]
  rfl

/-- The crowded log appends the fourth record, and all three files stay. -/
theorem exists_append_crowded :
    ∃ next, crowded.perform (.append .epoch note) = .ok (.appended ⟨4⟩, next) ∧
      next.disk.list crowded.store.config.directory = .ok ["sel", "sel.2", "sel.1"] := by
  have hanswer : (crowded.perform (.append .epoch note)).map (fun found =>
      (found.1, found.2.disk.list crowded.store.config.directory))
      = .ok (.appended ⟨4⟩, .ok ["sel", "sel.2", "sel.1"]) := by decide +kernel
  cases hrun : crowded.perform (.append .epoch note) with
  | error e =>
    rw [hrun] at hanswer
    cases hanswer
  | ok found =>
    obtain ⟨answer, next⟩ := found
    rw [hrun, Except.map, Except.ok.injEq, Prod.mk.injEq] at hanswer
    obtain ⟨rfl, hlist⟩ := hanswer
    exact ⟨next, rfl, hlist⟩

/-! ## What rotation keeps -/

/-- **Rotation gives every file below the limit the next number and spares all others**,
whatever the directory contains.  If the numbers below the limit are written plainly, the
records of the leftover files stay the oldest, those of the last file below the limit are
dropped, and the new record comes behind all; there are no more files than the limit and
the leftover ones. -/
theorem rotation_spares_leftovers {config : StoreConfig} (hconfig : log.store.config = config)
    (hname : IsFileName config.logName) (hword : config.HasWord)
    (hlist : log.disk.list config.directory = .ok names) (hnames : names.Nodup)
    (hentries : log.entries = .ok before)
    (hyear : 0 ≤ time.date.year ∧ time.date.year ≤ 9999) (hfull : ¬ log.HasRoom)
    (hop : log.perform (.append time record) = .ok (.appended id, next)) :
    let file := config.directory.join
    (∀ n node, n + 1 < max config.maxFiles 1 →
      (next.disk.stat (file (config.nameAt (n + 1))) = .ok node ↔
        log.disk.stat (file (config.nameAt n)) = .ok node)) ∧
    (∀ name node, config.IsLogFile name → (∀ n < max config.maxFiles 1, name ≠ config.nameAt n) →
      (next.disk.stat (file name) = .ok node ↔ log.disk.stat (file name) = .ok node)) ∧
    (config.PlainBelow names →
      let left := entriesOf ((config.leftovers names).reverse.flatMap fun name =>
        linesOn log.disk (file name))
      let dropped := entriesOf (linesOn log.disk (file (config.nameAt (config.maxFiles - 1))))
      let kept := entriesOf ((List.range (config.maxFiles - 1)).reverse.flatMap fun n =>
        linesOn log.disk (file (config.nameAt n)))
      before = left ++ dropped ++ kept ∧
      next.entries = .ok (left ++ kept ++ [record.entry time id]) ∧
      ∃ names', next.disk.list config.directory = .ok names' ∧
        config.leftovers names' = config.leftovers names ∧
        (config.filesAmong names').length
          ≤ max config.maxFiles 1 + (config.leftovers names).length) := by
  subst hconfig
  intro file
  obtain ⟨place, hs, rfl⟩ := Disk.standsAt_of_list hlist hnames
  obtain ⟨lines, _, hrun, rfl⟩ := lines_of_entries hentries
  have hr := readable_of_run_allLines hs hname hrun
  obtain ⟨-, -, hr', table, number, modified, hrotated, hturns⟩ :=
    rotated_of_append hs hname hword hr hfull hop
  have hs' := hs.turn hturns
  have hlogFile {n : Nat} (hn : n < max log.store.config.maxFiles 1) :
      log.store.config.IsLogFile (log.store.config.nameAt n) :=
    isLogFile_nameAt _ (hword.lt_wordLimit hn)
  refine ⟨fun n node hn => ?_, fun name node hlogname hne => ?_, fun hplain => ?_⟩
  · rw [hr'.stat_eq_ok hs' hname (hlogFile hn), hr.stat_eq_ok hs hname (hlogFile (by omega)),
      children_nameAt_succ hword hrotated hturns hn]
  · have hactive : name ≠ log.store.config.logName := hne 0 (by omega)
    rw [hr'.stat_eq_ok hs' hname hlogname, hr.stat_eq_ok hs hname hlogname, hturns.children,
      Function.update_of_ne hactive, hrotated.other name hne]
  · intro left dropped kept
    obtain ⟨hbefore, hafter⟩ := entries_of_rotated hs hname hword hr hplain hfull hyear hop
    obtain ⟨hleftovers, -⟩ := leftovers_turn hword hs hrotated hturns
    refine ⟨Except.ok.inj (hentries.symm.trans hbefore), hafter, _, Disk.list_eq hs', hleftovers, ?_⟩
    have hle := length_filesAmong_le hword hs'.distinct (hplain.turn hword hrotated hturns)
    rwa [hleftovers] at hle

/-- The file that is left over stays as it is; the record of the last one that is not goes. -/
theorem rotation_spares_leftovers_of_crowded :
    let config := crowded.store.config
    ∃ next names, crowded.perform (.append .epoch note) = .ok (.appended ⟨4⟩, next) ∧
      next.disk.stat (config.directory.join "sel.1") = .ok (noteFile ⟨3⟩) ∧
      next.disk.stat (config.directory.join "sel.2") = .ok (noteFile ⟨1⟩) ∧
      crowded.entries
        = .ok [note.entry .epoch ⟨1⟩, note.entry .epoch ⟨2⟩, note.entry .epoch ⟨3⟩] ∧
      next.entries = .ok [note.entry .epoch ⟨1⟩, note.entry .epoch ⟨3⟩, note.entry .epoch ⟨4⟩] ∧
      next.disk.list config.directory = .ok names ∧ (config.filesAmong names).length ≤ 3 := by
  intro config
  have hword : config.HasWord := (by decide : (2 : Nat) < Text.wordLimit)
  have hlog : IsFileName config.logName := by decide
  obtain ⟨next, hop, -⟩ := exists_append_crowded
  obtain ⟨hentries, -⟩ := entries_of_rotated standsAt_crowded hlog hword readable_crowded
    plainBelow_crowded not_hasRoom_crowded (by decide +kernel) hop
  have hlist := Disk.list_eq standsAt_crowded
  obtain ⟨hmoved, hspared, hordered⟩ := rotation_spares_leftovers rfl hlog hword hlist
    standsAt_crowded.distinct hentries (by decide +kernel) not_hasRoom_crowded hop
  obtain ⟨hbefore, hafter, names, hnames, -, hle⟩ := hordered plainBelow_crowded
  have hstat {name : String} {node : Node} (h : crowded.disk.children ["log"] name = some node)
      (hname : config.IsLogFile name) :
      crowded.disk.stat (config.directory.join name) = .ok node :=
    (readable_crowded.stat_eq_ok standsAt_crowded hlog hname).mpr h
  have hone : (config.leftovers (crowded.disk.namesAt ["log"])).length = 1 := by decide +kernel
  have htwo : config.IsLogFile (config.nameAt 2) := isLogFile_nameAt config (by decide)
  refine ⟨next, names, hop,
    (hmoved 0 _ (by decide)).mpr (hstat children_crowded.2.2 (isLogFile_logName config)),
    (hspared _ _ htwo (by decide)).mpr (hstat children_crowded.1 htwo), ?_, ?_, hnames,
    by rwa [hone] at hle⟩
  · rw [hentries, Except.ok.injEq]
    decide +kernel
  · rw [hafter, Except.ok.injEq]
    decide +kernel

/-- Rotation drops the record of a file below the limit, while an older one stays in a
file that should not be there.  Three files remain where two are allowed, and what is kept
is no suffix of what there was. -/
theorem leftover_outlives_newer :
    ∃ before next names, Log.open crowded.store.config crowded.disk = .ok crowded ∧
      crowded.entries = .ok before ∧
      crowded.perform (.append .epoch note) = .ok (.appended ⟨4⟩, next) ∧
      next.disk.list crowded.store.config.directory = .ok names ∧
      max crowded.store.config.maxFiles 1 < (crowded.store.config.filesAmong names).length ∧
      ∀ kept, kept <:+ before → next.entries ≠ .ok (kept ++ [note.entry .epoch ⟨4⟩]) := by
  obtain ⟨next, hop, hlist⟩ := exists_append_crowded
  obtain ⟨hbefore, hafter⟩ := entries_of_rotated standsAt_crowded (by decide)
    (by decide : (2 : Nat) < Text.wordLimit) readable_crowded plainBelow_crowded
    not_hasRoom_crowded (by decide +kernel) hop
  refine ⟨_, next, _, open_crowded, hbefore, hop, hlist, ?_, fun kept hkept heq => ?_⟩
  · rw [filesAmong, List.length_map, List.length_mergeSort]
    decide +kernel
  · rw [hafter, Except.ok.injEq, List.append_cancel_right_eq] at heq
    subst heq
    exact absurd hkept (by decide +kernel)

end Log

end EventLog
