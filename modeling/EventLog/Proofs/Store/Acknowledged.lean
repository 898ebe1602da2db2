import EventLog.Proofs.Store.Run

/-!
# EventLog.Proofs.Store.Acknowledged

What is read back of a record that was added to a log, whatever else its files hold.

* `storedLines_append_of_ended`: behind a text that ends a line, other lines are
  read as if they stood alone;
* `logNames_eq`: the active file comes before all others;
* `lines_of_append`: the line of a record goes behind the text of the active file;
* `acknowledged_is_read_back`: it comes behind all others if the active file ends
  its last line (and not always if it does not, `acknowledged_behind_unended`).
-/

namespace EventLog

open Disk (StandsAt Turns)
open Step

/-! ## Lines behind a text -/

/-- A text is empty or ends its last line. -/
def IsEnded (text : List Char) : Prop := ∀ c ∈ text.getLast?, c = '\n'

/-- Behind a text that ends its last line, others are read as if they stood alone. -/
theorem storedLines_append_of_ended {text : List Char} (h : IsEnded text) (rest : List Char) :
    storedLines (text ++ rest) = storedLines text ++ storedLines rest := by
  rcases text.eq_nil_or_concat' with rfl | ⟨front, last, rfl⟩
  · rfl
  · obtain rfl : last = '\n' := h last (by simp)
    have hnil : linesOf [] = [] := rfl
    rw [storedLines, storedLines, storedLines, ← List.filter_append, List.append_assoc,
      List.singleton_append, linesOf_append, linesOf_append, hnil, List.append_nil]

/-- A stored line is the one line of its text. -/
theorem storedLines_line {line : List Char} (h : IsStoredLine line) :
    storedLines (line ++ ['\n']) = [line] := by
  have hline := storedLines_textOfLines (List.forall_mem_singleton.mpr h)
  rwa [textOfLines, List.flatMap_singleton] at hline

/-- A line behind a text that ends its last one is read back behind its lines. -/
theorem run_readLines_of_ended {path : Path} {disk : Disk} {text line : List Char}
    (hread : disk.read path = .ok (bytesOf text ++ bytesOf (line ++ ['\n'])))
    (hended : IsEnded text) (hline : IsStoredLine line) :
    (readLines path).run disk = (.ok (storedLines text ++ [line]), disk) := by
  rw [bytesOf_append] at hread
  refine run_readLines_eq_ok.mpr ⟨rfl, _, hread, ?_⟩
  rw [storedLines_append_of_ended hended, storedLines_line hline]

namespace StoreConfig

variable {config : StoreConfig} {place : Place} {disk next : Disk} {name : String}

/-! ## The active file among the others -/

/-- The files of the log that are in the directory, but for the active one. -/
def olderNames (config : StoreConfig) (disk : Disk) (place : Place) : List String :=
  config.filesAmong ((disk.namesAt place).filter (· != config.logName))

/-- The files of the log are the active one, if it is there, and the older ones. -/
theorem logNames_eq (hs : StandsAt config.directory place disk) :
    config.logNames disk place =
      (if (disk.children place config.logName).isSome then [config.logName] else [])
        ++ config.olderNames disk place := by
  rw [logNames, olderNames]
  split
  · next hactive =>
    have hperm := List.perm_cons_erase (Disk.mem_namesAt.mpr hactive)
    rw [hs.distinct.erase_eq_filter] at hperm
    rw [filesAmong_perm hperm, filesAmong_cons_logName]
    rfl
  · next hactive =>
    rw [List.filter_eq_self.mpr fun name hmem => ?_, List.nil_append]
    rw [bne_iff_ne]
    rintro rfl
    exact hactive (Disk.mem_namesAt.mp hmem)

/-- The active file is none of the older ones. -/
theorem not_mem_olderNames : config.logName ∉ config.olderNames disk place := by
  rw [olderNames, mem_filesAmong]
  simp

/-- A change of the active file leaves the other files alone. -/
theorem olderNames_turn (hs : StandsAt config.directory place disk) {node? : Option Node}
    (h : Turns place disk next (Function.update (disk.children place) config.logName node?)) :
    config.olderNames next place = config.olderNames disk place := by
  refine filesAmong_perm ((List.perm_ext_iff_of_nodup ((hs.turn h).distinct.filter _)
    (hs.distinct.filter _)).mpr fun name => ?_)
  simp only [List.mem_filter, Disk.mem_namesAt, h.children, bne_iff_ne]
  constructor <;> rintro ⟨hsome, hne⟩ <;> exact ⟨by simpa [hne] using hsome, hne⟩

/-- The stored lines of all files but the active one, the oldest file first. -/
def olderLines (config : StoreConfig) (disk : Disk) (place : Place) : List (List Char) :=
  (config.olderNames disk place).reverse.flatMap fun name => linesAt (disk.children place name)

/-- The lines of the active file come behind all others. -/
theorem run_allLines_eq (hs : StandsAt config.directory place disk)
    (hlog : IsFileName config.logName) (hr : config.Readable (disk.children place)) :
    config.allLines.run disk = (.ok (config.olderLines disk place
      ++ linesAt (disk.children place config.logName)), disk) := by
  rw [run_allLines hs hlog hr, logNames_eq hs, List.reverse_append, List.flatMap_append, olderLines]
  cases hactive : disk.children place config.logName <;> simp [hactive, linesAt]

/-- An active file with room is not full. -/
theorem not_isFull (hs : StandsAt config.directory place disk) (hlog : IsFileName config.logName)
    (hr : config.Readable (disk.children place))
    (hroom : ∀ node, disk.stat config.activeFile = .ok node →
      config.maxFileBytes = 0 ∨ node.size < config.maxFileBytes) :
    ¬ config.IsFull (disk.children place) := by
  rintro ⟨hpos, node, hnode, hle⟩
  have hfits := (hr _ (isLogFile_logName config) node hnode).fits
  have hstat : disk.stat config.activeFile = .ok node := by
    rw [activeFile, Disk.stat_join hs hlog, if_neg (by omega), hnode]
  rcases hroom node hstat with hzero | hlt <;> omega

/-- An active file whose text ends a line is one that ends a line. -/
theorem isEnded_of_readText (hs : StandsAt config.directory place disk)
    (hlog : IsFileName config.logName) (hr : config.Readable (disk.children place))
    {text : List Char} (htext : HasText (disk.children place config.logName) text)
    (h : ∀ text, disk.readText config.activeFile = .ok text → IsEnded text.toList) :
    IsEnded text := by
  obtain ⟨-, rfl⟩ | ⟨number, time, hnode⟩ := htext
  · exact fun _ hc => by cases hc
  · have hfits := (hr _ (isLogFile_logName config) _ hnode).fits
    have hread := (Disk.read_join_eq_ok hs hlog).mpr ⟨hfits, number, time, hnode⟩
    simpa using h (String.ofList text) (Disk.readText_eq_ok.mpr hread)

/-- Adding a line to an active file that is not full leaves the others as they are,
and puts the line behind the text that the active file has. -/
theorem writeLine_ok_of_room (hword : config.HasWord)
    (hs : StandsAt config.directory place disk) (hlog : IsFileName config.logName)
    (hr : config.Readable (disk.children place)) (hroom : ¬ config.IsFull (disk.children place))
    {line : List Char} (h : (config.writeLine line).run disk = (.ok (), next)) :
    ∃ text, HasText (disk.children place config.logName) text ∧
      config.logName.utf8ByteSize ≤ Disk.nameLimit ∧ StandsAt config.directory place next ∧
      config.Readable (next.children place) ∧
      config.allLines.run next =
        (.ok (config.olderLines disk place ++ storedLines (text ++ (line ++ ['\n']))), next) := by
  obtain ⟨table, text, number, time, hmakes, -, htext, hfits, hturns⟩ :=
    writeLine_ok hword hs hlog hr h
  obtain rfl : table = disk.children place := by
    rcases hmakes with ⟨-, rfl⟩ | ⟨hfull, -⟩
    · rfl
    · exact absurd hfull hroom
  have hnext := hs.turn hturns
  have hread : config.Readable (next.children place) := by
    rw [hturns.children]
    exact hr.update_some ⟨hfits, number, _, time, rfl⟩
  have holder : config.olderLines next place = config.olderLines disk place := by
    rw [olderLines, olderNames_turn hs hturns, olderLines]
    refine List.flatMap_congr fun name hname => ?_
    have hne : name ≠ config.logName := by
      rintro rfl
      exact not_mem_olderNames (List.mem_reverse.mp hname)
    rw [hturns.children, Function.update_of_ne hne]
  refine ⟨text, htext, hfits, hnext, hread, ?_⟩
  rw [run_allLines_eq hnext hlog hread, holder, hturns.children, Function.update_self, linesAt_file]

end StoreConfig

namespace Log

open StoreConfig

variable {log next : Log} {place : Place}

theorem numberedIn_concat (lines : List (List Char)) (time : Timestamp) (id : RecordId)
    (record : Record) :
    numberedIn (lines ++ [Line.format time id record]) = numberedIn lines + 1 := by
  simp [numberedIn, Line.recordId?_format]

theorem entriesOf_concat {lines : List (List Char)} {time : Timestamp}
    (hyear : 0 ≤ time.date.year ∧ time.date.year ≤ 9999) (id : RecordId) {record : Record}
    (h : record.HasSensorPath) :
    entriesOf (lines ++ [Line.format time id record])
      = entriesOf lines ++ [record.entry time id] := by
  simp [entriesOf, Line.ofLine?_format hyear id h, Except.toOption]

/-- The entries are read off all lines. -/
theorem lines_of_entries {before : List Entry} (h : log.entries = .ok before) :
    ∃ lines disk, log.store.config.allLines.run log.disk = (.ok lines, disk) ∧
      before = entriesOf lines := by
  rw [entries] at h
  rcases hrun : log.store.entries.run log.disk with ⟨e | found, disk⟩ <;> rw [hrun] at h
  · cases h
  · cases h
    obtain ⟨files, middle, hfiles, hread⟩ := run_bind_eq_ok.mp hrun
    obtain ⟨lines, last, hlines, hread⟩ := run_bind_eq_ok.mp hread
    cases hread
    exact ⟨lines, disk, (run_bind_of_ok hfiles _).trans hlines, rfl⟩

/-- The information counts the lines that carry a record id. -/
theorem entries_of_info (hs : StandsAt log.store.config.directory place log.disk)
    (hlog : IsFileName log.store.config.logName)
    (hr : log.store.config.Readable (log.disk.children place)) {lines : List (List Char)}
    (hlines : log.lines = .ok lines) {info : StoreInfo} (h : log.info = .ok info) :
    info.entries = numberedIn lines := by
  rw [Log.info] at h
  rcases hrun : log.store.info.run log.disk with ⟨e | found, disk⟩ <;> rw [hrun] at h
  · cases h
  · cases h
    rw [run_info hs hlog hr hlines] at hrun
    obtain ⟨_, _, -, hrun⟩ := run_bind_eq_ok.mp hrun
    obtain ⟨_, _, -, hrun⟩ := run_bind_eq_ok.mp hrun
    cases hrun
    rfl

variable {time : Timestamp} {record : Record} {id : RecordId} {names : List String}
  {before : List Entry}

/-- The line of a record goes behind the text of an active file that is not full. -/
theorem lines_of_append (hs : StandsAt log.store.config.directory place log.disk)
    (hname : IsFileName log.store.config.logName) (hword : log.store.config.HasWord)
    (hr : log.store.config.Readable (log.disk.children place))
    (hroom : ¬ log.store.config.IsFull (log.disk.children place))
    (hop : log.perform (.append time record) = .ok (.appended id, next)) :
    record.HasSensorPath ∧ next.store.config = log.store.config ∧
      StandsAt next.store.config.directory place next.disk ∧
      next.store.config.Readable (next.disk.children place) ∧
      next.store.config.logName.utf8ByteSize ≤ Disk.nameLimit ∧
      ∃ earlier text, HasText (log.disk.children place log.store.config.logName) text ∧
        log.lines = .ok (earlier ++ storedLines text) ∧
        next.lines
          = .ok (earlier ++ storedLines (text ++ (Line.format time id record ++ ['\n']))) := by
  rcases append_ok hop with ⟨_, -, h, -⟩ | ⟨hcheck, hid, hstore, hwrite⟩
  · cases h
  · cases hid
    have hconfig : next.store.config = log.store.config := by rw [hstore]
    obtain ⟨text, htext, hfits, hs', hr', hlines⟩ :=
      writeLine_ok_of_room hword hs hname hr hroom hwrite
    rw [← hconfig] at hfits hs' hr' hlines
    refine ⟨checkRecord_eq_ok.mp hcheck, hconfig, hs', hr', hfits, _, text, htext, ?_,
      congrArg Prod.fst hlines⟩
    rw [Log.lines, run_allLines_eq hs hname hr, htext.linesAt_eq, hconfig]

/-- **What is read back of a record that was acknowledged**, whatever else is in the
log, as long as no file has to be moved on.  The line of the record comes behind all
others, or ends the last one if that had no end.  If the active file ends its last
line, the entries are those before and the record, and there is one more. -/
theorem acknowledged_is_read_back (hname : IsFileName log.store.config.logName)
    (hword : log.store.config.HasWord)
    (hlist : log.disk.list log.store.config.directory = .ok names) (hnames : names.Nodup)
    (hentries : log.entries = .ok before)
    (hyear : 0 ≤ time.date.year ∧ time.date.year ≤ 9999)
    (hroom : ∀ node, log.disk.stat log.store.config.activeFile = .ok node →
      log.store.config.maxFileBytes = 0 ∨ node.size < log.store.config.maxFileBytes)
    (hop : log.perform (.append time record) = .ok (.appended id, next)) :
    (∃ earlier rest,
      log.lines = .ok (earlier ++ if Text.isBlankText rest then [] else [rest]) ∧
      next.lines = .ok (earlier ++ [rest ++ Line.format time id record])) ∧
    ((∀ text, log.disk.readText log.store.config.activeFile = .ok text → IsEnded text.toList) →
      next.entries = .ok (before ++ [record.entry time id]) ∧
      ∀ info lastErase, log.info = .ok info →
        ((modifiedTime log.store.config.eraseMarker).run next.disk).1 = .ok lastErase →
        ∃ lastAdd, next.info = .ok ⟨info.entries + 1, lastAdd, lastErase⟩) := by
  obtain ⟨place, hs, -⟩ := Disk.standsAt_of_list hlist hnames
  obtain ⟨lines, _, hrun, rfl⟩ := lines_of_entries hentries
  have hlines : log.lines = .ok lines := congrArg Prod.fst hrun
  have hr := readable_of_run_allLines hs hname hrun
  obtain ⟨hpath, hconfig, hs', hr', hfits, earlier, text, htext, hbefore, hafter⟩ :=
    lines_of_append hs hname hword hr (not_isFull hs hname hr hroom) hop
  have hline := isStoredLine_format time id hpath
  refine ⟨?_, fun hended => ?_⟩
  · -- The new line ends what stands behind the last line feed, if anything does.
    obtain ⟨others, rest, hothers, hadded⟩ := storedLines_append_line text
    refine ⟨earlier ++ others, rest, ?_, ?_⟩
    · rw [hbefore, hothers, List.append_assoc]
    · rw [hafter, hadded _ hline, List.append_assoc]
  · rw [storedLines_append_of_ended (isEnded_of_readText hs hname hr htext hended),
      storedLines_line hline, ← List.append_assoc, ← Except.ok.inj (hlines.symm.trans hbefore)]
      at hafter
    refine ⟨?_, fun info lastErase hinfo hmarker => ?_⟩
    · rw [entries_eq (Prod.ext hafter rfl), entriesOf_concat hyear _ hpath]
    · rw [← hconfig] at hname hmarker
      rw [entries_of_info hs (hconfig ▸ hname) hr hlines hinfo,
        ← numberedIn_concat lines time id record]
      exact exists_info hs' hname hfits hr' hafter hmarker

/-- A line that is no record, a blank one and a record, and then one more. -/
theorem acknowledged_behind_other_text :
    let config : StoreConfig := ⟨⟨"/log"⟩, "sel", ⟨"/erased"⟩, 0, 1⟩
    let note : Record := ⟨0xE0, "", [], .oem, []⟩
    let text := "no record\r\n\n".toList ++ (Line.format .epoch ⟨7⟩ note ++ ['\n'])
    let disk : Disk := ⟨.epoch, 1, [([], .directory .epoch), (["log"], .directory .epoch),
      (["log", "sel"], .file 0 (bytesOf text) .epoch)]⟩
    ∃ log next, Log.open config disk = .ok log ∧
      log.perform (.append .epoch note) = .ok (.appended ⟨8⟩, next) ∧
      next.entries = .ok [note.entry .epoch ⟨7⟩, note.entry .epoch ⟨8⟩] := by
  intro config note text disk
  have hanswers : (Log.open config disk >>= fun log => (log.run [.append .epoch note]).map (·.1))
      = .ok [.appended ⟨8⟩] := by decide +kernel
  have hstart : (Log.open config disk).map (fun log =>
      (log.store.config, log.disk.list config.directory, log.entries))
      = .ok (config, .ok ["sel"], .ok [note.entry .epoch ⟨7⟩]) := by
    decide +kernel
  have hread : (Log.open config disk).map (·.disk.readText config.activeFile)
      = .ok (.ok (String.ofList text)) := by
    decide +kernel
  have hended : text.getLast? = some '\n' := by
    simp only [text, ← List.append_assoc, List.getLast?_concat]
  obtain ⟨log, next, hopen, hrun⟩ := exists_run hanswers
  obtain ⟨answer, _, rest, hop, hrest, hanswer⟩ := run_cons_eq_ok.mp hrun
  cases hrest
  cases hanswer
  rw [hopen, Except.map, Except.ok.injEq] at hstart hread
  obtain ⟨hconfig, hlist, hentries⟩ := by simpa only [Prod.mk.injEq] using hstart
  rw [← hconfig] at hlist hread
  have hname : IsFileName log.store.config.logName := hconfig ▸ (by decide)
  have hword : log.store.config.HasWord := hconfig ▸ (by decide : (1 : Nat) < Text.wordLimit)
  have hadded := (acknowledged_is_read_back hname hword hlist (List.nodup_singleton _) hentries
    (by decide +kernel) (fun _ _ => .inl (hconfig ▸ rfl)) hop).2 fun found hfound c hc => by
      cases hread.symm.trans hfound
      rw [String.toList_ofList, hended, Option.mem_some] at hc
      exact hc.symm
  exact ⟨log, next, hopen, hop, hadded.1⟩

/-- Behind a record whose line has no end, a record is acknowledged, and then neither
is read back. -/
theorem acknowledged_behind_unended :
    let config : StoreConfig := ⟨⟨"/log"⟩, "sel", ⟨"/erased"⟩, 0, 1⟩
    let note : Record := ⟨0xE0, "", [], .oem, []⟩
    let disk : Disk := ⟨.epoch, 1, [([], .directory .epoch), (["log"], .directory .epoch),
      (["log", "sel"], .file 0 (bytesOf (Line.format .epoch ⟨7⟩ note)) .epoch)]⟩
    (do
      let log ← Log.open config disk
      let before ← log.entries
      let infoBefore ← log.info
      let (answer, next) ← log.perform (.append .epoch note)
      return (before, infoBefore.entries, answer, ← next.entries, (← next.info).entries))
      = .ok ([note.entry .epoch ⟨7⟩], 1, .appended ⟨8⟩, [], 1) := by
  decide +kernel

end Log

end EventLog
