import EventLog.Proofs.Disk.Files
import EventLog.Proofs.Line
import EventLog.Store.Basic

/-!
# EventLog.Proofs.Store.Lines

The lines of a file.

* `storedLines_textOfLines`: lines that were written one behind another are read
  back as they are;
* `storedLines_append_line`: a line that is added to any text is a line of its
  own, or ends the last one if that had no end;
* `lines_round_trip`: the lines of records are read back by all readers, each
  and as a file.
-/

namespace EventLog

/-- A line that is read back as it was written: it has no end of a line in it,
and it is not passed over. -/
structure IsStoredLine (line : List Char) : Prop where
  lineFeed : '\n' ∉ line
  carriageReturn : line.getLast? ≠ some '\r'
  notBlank : Text.isBlankText line = false

/-- No stored line is empty. -/
theorem IsStoredLine.ne_nil {line : List Char} (h : IsStoredLine line) : line ≠ [] := by
  rintro rfl
  exact absurd h.notBlank (by decide)

/-- The line of a record is read back as it was written. -/
theorem isStoredLine_format (time : Timestamp) (id : RecordId) {record : Record}
    (h : record.HasSensorPath) : IsStoredLine (Line.format time id record) where
  lineFeed hm := absurd (Line.isControl_of_mem_format h hm) (by decide)
  carriageReturn hm :=
    absurd (Line.isControl_of_mem_format h (List.mem_of_mem_getLast? hm)) (by decide)
  notBlank := Line.not_isBlankText_format time id record

/-! ## Stored records -/

/-- A record with the time and the number that it is stored under. -/
structure StoredRecord where
  time : Timestamp
  id : RecordId
  record : Record
  deriving DecidableEq, Repr

namespace StoredRecord

def line (stored : StoredRecord) : List Char := Line.format stored.time stored.id stored.record

/-- The entry that a stored record is read back as. -/
def entry (stored : StoredRecord) : Entry := stored.record.entry stored.time stored.id

end StoredRecord

@[simp] theorem id_entry (stored : StoredRecord) : stored.entry.id = stored.id := by
  unfold StoredRecord.entry Record.entry
  split <;> rfl

/-- A record passes the check exactly if its sensor path can stand in a line. -/
theorem checkRecord_eq_ok {record : Record} :
    Store.checkRecord record = .ok () ↔ record.HasSensorPath := by
  unfold Store.checkRecord Record.HasSensorPath checkSensorPath
  cases record.sensorPath? <;> simp

/-! ## Lines of a text -/

/-- The lines of a text are those before a line feed and those behind it. -/
theorem linesOf_append (front rest : List Char) :
    linesOf (front ++ '\n' :: rest) =
      (Text.fields '\n' front).map linesOf.stripReturn ++ linesOf rest := by
  have hne := Text.fields_ne_nil '\n' rest
  have hlast : (Text.fields '\n' front ++ Text.fields '\n' rest).getLastD []
      = (Text.fields '\n' rest).getLastD [] := by
    simp [List.getLastD_eq_getLast?, List.getLast?_append, List.getLast?_eq_some_getLast hne]
  simp only [linesOf, Text.fields_append_sep, hlast, List.dropLast_append_of_ne_nil hne,
    List.map_append, List.append_assoc]

theorem stripReturn_of_ne {line : List Char} (h : line.getLast? ≠ some '\r') :
    linesOf.stripReturn line = line := if_neg h

theorem stripReturn_concat (front : List Char) : linesOf.stripReturn (front ++ ['\r']) = front := by
  simp [linesOf.stripReturn]

/-- A line ends in a carriage return, or it stays as it is. -/
theorem eq_concat_or_stripReturn_eq (line : List Char) :
    line = linesOf.stripReturn line ++ ['\r'] ∨
      line.getLast? ≠ some '\r' ∧ linesOf.stripReturn line = line := by
  by_cases h : line.getLast? = some '\r'
  · obtain ⟨front, rfl⟩ := List.getLast?_eq_some_iff.mp h
    exact .inl (by rw [stripReturn_concat])
  · exact .inr ⟨h, stripReturn_of_ne h⟩

theorem isBlankText_append (a b : List Char) :
    Text.isBlankText (a ++ b) = (Text.isBlankText a && Text.isBlankText b) := by
  simp [Text.isBlankText]

/-- A carriage return at its end does not decide whether a line is blank. -/
theorem isBlankText_stripReturn (line : List Char) :
    Text.isBlankText (linesOf.stripReturn line) = Text.isBlankText line := by
  have hreturn : Text.isBlankText ['\r'] = true := by decide
  rcases eq_concat_or_stripReturn_eq line with h | ⟨-, h⟩
  · conv_rhs => rw [h, isBlankText_append, hreturn, Bool.and_true]
  · rw [h]

/-- Lines that were written are read back without carriage returns at their ends. -/
theorem storedLines_textOfLines_eq {lines : List (List Char)}
    (h : ∀ line ∈ lines, '\n' ∉ line ∧ Text.isBlankText line = false) :
    storedLines (textOfLines lines) = lines.map linesOf.stripReturn := by
  induction lines with
  | nil => rfl
  | cons line lines ih =>
    obtain ⟨hfeed, hblank⟩ := h line List.mem_cons_self
    have hrest := ih fun l hl => h l (List.mem_cons_of_mem line hl)
    have hcut : textOfLines (line :: lines) = line ++ '\n' :: textOfLines lines := by
      simp [textOfLines]
    rw [storedLines, hcut, linesOf_append, Text.fields_of_not_mem hfeed, List.filter_append]
    rw [storedLines] at hrest
    simp [isBlankText_stripReturn, hblank, hrest]

/-- **Lines that were written one behind another are read back** as they are. -/
theorem storedLines_textOfLines {lines : List (List Char)} (h : ∀ line ∈ lines, IsStoredLine line) :
    storedLines (textOfLines lines) = lines := by
  rw [storedLines_textOfLines_eq fun line hl => ⟨(h line hl).lineFeed, (h line hl).notBlank⟩]
  exact (List.map_congr_left fun line hl => stripReturn_of_ne (h line hl).carriageReturn).trans
    (List.map_id lines)

/-- The lines of a text have no line feed and are not blank. -/
theorem of_mem_storedLines {text line : List Char} (h : line ∈ storedLines text) :
    '\n' ∉ line ∧ Text.isBlankText line = false := by
  obtain ⟨hline, hblank⟩ := List.mem_filter.mp h
  refine ⟨fun hfeed => ?_, by simpa using hblank⟩
  rw [linesOf, List.mem_append] at hline
  rcases hline with hline | hline
  · obtain ⟨piece, hp, rfl⟩ := List.mem_map.mp hline
    refine Text.not_mem_of_mem_fields (List.mem_of_mem_dropLast hp) ?_
    rcases eq_concat_or_stripReturn_eq piece with he | ⟨-, he⟩
    · rw [he]
      exact List.mem_append_left _ hfeed
    · rwa [he] at hfeed
  · have hne := Text.fields_ne_nil '\n' text
    rw [List.getLastD_eq_getLast?, List.getLast?_eq_some_getLast hne] at hline
    split at hline
    · cases hline
    · rw [List.mem_singleton] at hline
      rw [hline] at hfeed
      exact Text.not_mem_of_mem_fields (List.getLast_mem hne) hfeed

/-- A line that is added to a text is a line of its own, or ends the last one
if that had no end. -/
theorem storedLines_append_line (text : List Char) :
    ∃ earlier last, storedLines text = earlier ++ (if Text.isBlankText last then [] else [last]) ∧
      ∀ line, IsStoredLine line →
        storedLines (text ++ (line ++ ['\n'])) = earlier ++ [last ++ line] := by
  obtain ⟨pieces, last, hpieces, hadded⟩ := Text.exists_last_field '\n' text
  refine ⟨(pieces.map linesOf.stripReturn).filter fun line => !Text.isBlankText line, last, ?_, ?_⟩
  · rw [storedLines, linesOf, hpieces, List.filter_append]
    simp only [List.dropLast_concat, List.getLastD_concat]
    cases last with
    | nil => rfl
    | cons c last =>
      cases hblank : Text.isBlankText (c :: last) <;> simp [hblank]
  · intro line hline
    have hcut : text ++ (line ++ ['\n']) = (text ++ line) ++ '\n' :: [] := by simp
    have hreturn : (last ++ line).getLast? ≠ some '\r' := by
      have hlast := hline.carriageReturn
      rw [List.getLast?_eq_some_getLast hline.ne_nil] at hlast
      rwa [List.getLast?_append, List.getLast?_eq_some_getLast hline.ne_nil]
    have hpieces' := hadded line line [] (Text.fields_of_not_mem hline.lineFeed)
    rw [storedLines, hcut, linesOf_append, hpieces']
    simp [linesOf, stripReturn_of_ne hreturn, isBlankText_append, hline.notBlank]

/-! ## Lines of a file -/

@[simp] theorem bytesOf_append (a b : List Char) : bytesOf a ++ bytesOf b = bytesOf (a ++ b) := by
  simp [bytesOf]

theorem bytesOf_toList (text : String) : bytesOf text.toList = text.toByteArray := by
  simp [bytesOf]

theorem bytesOf_inj {a b : List Char} : bytesOf a = bytesOf b ↔ a = b := by
  rw [bytesOf, bytesOf, String.toByteArray_inj, String.ofList_inj]

/-- The lines of a file are read exactly if the file has the bytes of a text. -/
theorem run_readLines_eq_ok {path : Path} {disk next : Disk} {lines : List (List Char)} :
    (readLines path).run disk = (.ok lines, next) ↔
      next = disk ∧ ∃ text, disk.read path = .ok (bytesOf text) ∧ lines = storedLines text := by
  have hread (text : String) :
      disk.readText path = .ok text ↔ disk.read path = .ok (bytesOf text.toList) := by
    rw [bytesOf_toList, Disk.readText_eq_ok]
  rw [readLines, Step.run_bind, Disk.run_look]
  cases h : disk.readText path with
  | error e =>
    refine ⟨fun h => (by cases h), fun ⟨_, text, htext, _⟩ => ?_⟩
    have := (hread (String.ofList text)).mpr (by simpa using htext)
    rw [h] at this
    cases this
  | ok text =>
    have htext := (hread text).mp h
    constructor
    · intro hrun
      cases hrun
      exact ⟨rfl, text.toList, htext, rfl⟩
    · rintro ⟨rfl, other, hother, rfl⟩
      rw [htext, Except.ok.injEq, bytesOf_inj] at hother
      rw [← hother]
      rfl

/-- A file of stored lines is read as these lines. -/
theorem readLines_of_read {path : Path} {disk : Disk} {lines : List (List Char)}
    (hlines : ∀ line ∈ lines, IsStoredLine line)
    (h : disk.read path = .ok (bytesOf (textOfLines lines))) :
    (readLines path).run disk = (.ok lines, disk) :=
  run_readLines_eq_ok.mpr ⟨rfl, _, h, (storedLines_textOfLines hlines).symm⟩

/-- **The lines of records are read back.**  Each is one line and not blank, its
number is found, and in the years 0 to 9999 the whole record is; a file of such
lines has just these lines. -/
theorem lines_round_trip {records : List StoredRecord}
    (hyear : ∀ stored ∈ records, 0 ≤ stored.time.date.year ∧ stored.time.date.year ≤ 9999)
    (hpath : ∀ stored ∈ records, Store.checkRecord stored.record = .ok ()) :
    (∀ stored ∈ records,
      (∀ c ∈ stored.line, c ≠ '\n' ∧ c ≠ '\r') ∧
      Text.isBlankText stored.line = false ∧
      Line.recordId? stored.line = some stored.id ∧
      Entry.ofLine? stored.line = .ok stored.entry) ∧
    ∀ path disk, disk.read path = .ok (bytesOf (textOfLines (records.map StoredRecord.line))) →
      (readLines path).run disk = (.ok (records.map StoredRecord.line), disk) := by
  have hpath (stored : StoredRecord) (hs : stored ∈ records) : stored.record.HasSensorPath :=
    checkRecord_eq_ok.mp (hpath stored hs)
  refine ⟨fun stored hs => ⟨fun c hc => ?_, Line.not_isBlankText_format _ _ _,
    Line.recordId?_format _ _ _, Line.ofLine?_format (hyear stored hs) _ (hpath stored hs)⟩, ?_⟩
  · have hcontrol := Line.isControl_of_mem_format (hpath stored hs) hc
    constructor <;> (rintro rfl; exact absurd hcontrol (by decide))
  · intro path disk hread
    refine readLines_of_read (fun line hline => ?_) hread
    obtain ⟨stored, hs, rfl⟩ := List.mem_map.mp hline
    exact isStoredLine_format stored.time stored.id (hpath stored hs)

/-- A leap second, and a path with blanks and letters beyond ASCII. -/
theorem lines_round_trip_leap_second :
    let records : List StoredRecord :=
      [⟨⟨1483228799, 1500000000, by decide, by decide⟩, ⟨1⟩,
        ⟨2, "", [0x01, 0xFF, 0xFF], .system 0x20 "/xyz/Lüfter 1" true, []⟩⟩,
      ⟨⟨1483228800, 7, by decide, by decide⟩, ⟨65534⟩, ⟨0xE0, "", [], .oem, []⟩⟩]
    let disk : Disk := ⟨.epoch, 1, [([], .directory .epoch),
      (["log"], .file 0 (bytesOf (textOfLines (records.map StoredRecord.line))) .epoch)]⟩
    (readLines ⟨"/log"⟩).run disk = (.ok (records.map StoredRecord.line), disk) := by
  intro records disk
  have hyear : ∀ stored ∈ records, 0 ≤ stored.time.date.year ∧ stored.time.date.year ≤ 9999 := by
    decide +kernel
  have hpath : ∀ stored ∈ records, Store.checkRecord stored.record = .ok () := by decide +kernel
  exact (lines_round_trip hyear hpath).2 ⟨"/log"⟩ disk (by decide +kernel)

end EventLog
