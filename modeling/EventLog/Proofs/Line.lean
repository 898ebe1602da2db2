import EventLog.Line
import EventLog.Proofs.Text
import EventLog.Proofs.Time.Timestamp

/-!
# EventLog.Proofs.Line

The line of a record is read back by both readers.

* `recordId?_format`: the number is found on every line, in any year;
* `ofLine?_format`: in the years 0 to 9999 the whole record is read back, as
  `Record.entry` has it;
* `isControl_of_mem_format`, `not_isBlankText_format`: a line stays one line
  and is not passed over as blank.

A sensor path may hold blanks, and so the fields are cut at commas only after
the time has been cut off; the number comes before the path, and so the words
of a line are cut at both.
-/

namespace EventLog

/-- The entry that the line of a record is read back as.  An empty sensor path
is none, and an OEM record has neither generator nor direction. -/
def Record.entry (record : Record) (time : Timestamp) (id : RecordId) : Entry :=
  match record.origin with
  | .system generator sensor assert =>
    ⟨time, id, record.recordType, record.data, some generator,
      if sensor = "" then none else some sensor, some assert⟩
  | .oem => ⟨time, id, record.recordType, record.data, none, none, none⟩

/-- The sensor path of a record, if it has one, keeps to one line and one field. -/
def Record.HasSensorPath (record : Record) : Prop := ∀ path ∈ record.sensorPath?, IsSensorPath path

namespace Line

/-! ## Words -/

/-- A line is cut into words at every blank and comma. -/
theorem words_append_sep {sep : Char} (hsep : sep = ' ' ∨ sep = ',') (front rest : List Char) :
    words (front ++ sep :: rest) = words front ++ words rest := by
  rcases hsep with rfl | rfl
  · simp only [words, Text.fields_append_sep, List.flatMap_append, List.filter_append]
  · obtain ⟨pieces, last, hfront, hadd⟩ := Text.exists_last_field ' ' front
    -- The comma belongs to the last piece of the front and the first one of the rest.
    have hrest : Text.fields ' ' (',' :: rest)
        = (',' :: (Text.cut ' ' rest).1) :: (Text.cut ' ' rest).2 :=
      Text.fields_cons_of_ne (by decide) rest
    have hcut : Text.fields ' ' rest = (Text.cut ' ' rest).1 :: (Text.cut ' ' rest).2 := rfl
    simp only [words, hadd _ _ _ hrest, hfront, hcut, List.flatMap_append, List.flatMap_cons,
      List.flatMap_nil, Text.fields_append_sep, List.filter_append, List.append_nil,
      List.append_assoc]

/-- A text without blanks and commas is one word. -/
theorem words_of_not_mem {word : List Char} (hs : ' ' ∉ word) (hc : ',' ∉ word) (hne : word ≠ []) :
    words word = [word] := by
  rw [words, Text.fields_of_not_mem hs, List.flatMap_singleton, Text.fields_of_not_mem hc]
  simp [hne]

/-- What is added to a line without blanks and commas goes on in its last word. -/
theorem exists_last_word (line : List Char) :
    ∃ earlier last, words line = earlier ++ [last].filter (!·.isEmpty) ∧
      ∀ more, more ≠ [] → ' ' ∉ more → ',' ∉ more →
        words (line ++ more) = earlier ++ [last ++ more] := by
  obtain ⟨pieces, piece, hline, hpiece⟩ := Text.exists_last_field ' ' line
  obtain ⟨parts, last, hparts, hlast⟩ := Text.exists_last_field ',' piece
  refine ⟨(pieces.flatMap (Text.fields ',') ++ parts).filter (!·.isEmpty), last, ?_, ?_⟩
  · simp only [words, hline, hparts, List.flatMap_append, List.flatMap_singleton, List.filter_append,
      List.append_assoc]
  · intro more hne hs hc
    have hadded := hpiece more more [] (Text.fields_of_not_mem hs)
    have hcut := hlast more more [] (Text.fields_of_not_mem hc)
    simp only [words, hadded, hcut, List.flatMap_append, List.flatMap_singleton, List.filter_append,
      List.append_assoc]
    simp [hne]

/-- Words have no other characters than the line. -/
theorem mem_of_mem_words {line word : List Char} (hw : word ∈ words line) {c : Char}
    (hc : c ∈ word) : c ∈ line := by
  obtain ⟨piece, hp, hword⟩ := List.mem_flatMap.mp (List.mem_filter.mp hw).1
  exact Text.mem_of_mem_fields hp (Text.mem_of_mem_fields hword hc)

/-! ## The number -/

theorem logText_ne_nil (t : Timestamp) : t.logText ≠ [] :=
  List.ne_nil_of_mem (Timestamp.dash_mem_logText t)

/-- The number and what stands behind it on a line. -/
theorem format_eq (time : Timestamp) (id : RecordId) (record : Record) :
    ∃ rest, format time id record =
      time.logText ++ ' ' :: (Nat.toDigits 10 id.toNat ++ ',' :: rest) := by
  obtain ⟨recordType, message, data, origin, metadata⟩ := record
  cases origin <;> exact ⟨_, rfl⟩

theorem recordId?_of_words {line first second : List Char} {rest : List (List Char)}
    (h : words line = first :: second :: rest) :
    recordId? line = (Text.numeral? 10 65536 second).map RecordId.ofNat := by
  simp [recordId?, h]

/-- The number of a record is found behind the time, whatever follows it. -/
theorem recordId?_append_number {time : List Char} (hs : ' ' ∉ time) (hc : ',' ∉ time)
    (hne : time ≠ []) (id : RecordId) (rest : List Char) :
    recordId? (time ++ ' ' :: (Nat.toDigits 10 id.toNat ++ ',' :: rest)) = some id := by
  have hdigits : ' ' ∉ Nat.toDigits 10 id.toNat ∧ ',' ∉ Nat.toDigits 10 id.toNat :=
    ⟨fun h => (Text.plain_of_mem_toDigits h).1 rfl, fun h => (Text.plain_of_mem_toDigits h).2.1 rfl⟩
  have hwords := words_append_sep (.inl rfl) time (Nat.toDigits 10 id.toNat ++ ',' :: rest)
  rw [words_append_sep (.inr rfl), words_of_not_mem hs hc hne,
    words_of_not_mem hdigits.1 hdigits.2 (Text.toDigits_ne_nil (by omega) _)] at hwords
  rw [recordId?_of_words hwords, Text.numeral?_toDigits id.toNat_lt]
  simp

/-- The number of a record is found on its line. -/
theorem recordId?_format (time : Timestamp) (id : RecordId) (record : Record) :
    recordId? (format time id record) = some id := by
  obtain ⟨rest, h⟩ := format_eq time id record
  rw [h, recordId?_append_number (fun h => (Timestamp.plain_of_mem_logText h).1 rfl)
    (fun h => (Timestamp.plain_of_mem_logText h).2.1 rfl) (logText_ne_nil time)]

/-! ## Numbers on lines that were added to -/

/-- A line with a number has that as its second word. -/
theorem words_of_recordId? {line : List Char} {id : RecordId} (h : recordId? line = some id) :
    ∃ first second rest, words line = first :: second :: rest ∧
      (Text.numeral? 10 65536 second).map RecordId.ofNat = some id := by
  unfold recordId? at h
  split at h
  · next first second rest hwords => exact ⟨first, second, rest, hwords, h⟩
  · cases h

/-- A blank line has no number. -/
theorem recordId?_of_isBlankText {line : List Char} (h : Text.isBlankText line = true) :
    recordId? line = none := by
  cases hid : recordId? line with
  | none => rfl
  | some id =>
    obtain ⟨first, second, rest, hwords, hnumeral⟩ := words_of_recordId? hid
    have hmem : second ∈ words line := by simp [hwords]
    obtain ⟨c, hc⟩ := List.exists_mem_of_ne_nil second (by simpa using (List.mem_filter.mp hmem).2)
    have hblank := List.all_eq_true.mp h c (mem_of_mem_words hmem hc)
    rw [Text.numeral?_eq_none_of_mem hc (by rintro rfl; exact absurd hblank (by decide))
      (Text.digit?_of_isBlank hblank)] at hnumeral
    cases hnumeral

/-- A word with a character that is no digit, added to a line, is not its number. -/
theorem recordId?_append_word {line more : List Char} (hs : ' ' ∉ more) (hc : ',' ∉ more) {c : Char}
    (hmem : c ∈ more) (hplus : c ≠ '+') (hdigit : Text.digit? 10 c = none) {id : RecordId}
    (h : recordId? (line ++ more) = some id) : recordId? line = some id := by
  obtain ⟨earlier, last, hline, hadd⟩ := exists_last_word line
  obtain ⟨first, second, rest, hwords, hid⟩ := words_of_recordId? h
  rw [hadd more (List.ne_nil_of_mem hmem) hs hc] at hwords
  match earlier with
  | [] => cases hwords
  | [word] =>
    cases hwords
    rw [Text.numeral?_eq_none_of_mem (List.mem_append_right last hmem) hplus hdigit] at hid
    cases hid
  | _ :: _ :: _ =>
    cases hwords
    rw [recordId?_of_words hline, hid]

/-- The line of a record, added to one that had no end, brings at most its own
number, and that only if there was none. -/
theorem recordId?_append_format (line : List Char) (time : Timestamp) (id : RecordId)
    (record : Record) :
    (recordId? (line ++ format time id record)).toList.Sublist
      ((recordId? line).toList ++ [id]) := by
  obtain ⟨rest, hformat⟩ := format_eq time id record
  obtain ⟨earlier, last, hline, hadd⟩ := exists_last_word line
  have hwords : words (line ++ format time id record)
      = earlier ++ (last ++ time.logText) :: Nat.toDigits 10 id.toNat :: words rest := by
    have hplain {c : Char} (hc : c ∈ time.logText) := Timestamp.plain_of_mem_logText hc
    rw [hformat, ← List.append_assoc, words_append_sep (.inl rfl), words_append_sep (.inr rfl),
      hadd _ (logText_ne_nil time) (fun h => (hplain h).1 rfl) (fun h => (hplain h).2.1 rfl),
      words_of_not_mem (fun h => (Text.plain_of_mem_toDigits h).1 rfl)
        (fun h => (Text.plain_of_mem_toDigits h).2.1 rfl) (Text.toDigits_ne_nil (by omega) _)]
    simp
  match earlier with
  | [] =>
    have hid : recordId? (line ++ format time id record) = some id := by
      rw [recordId?_of_words hwords, Text.numeral?_toDigits id.toNat_lt]
      simp
    rw [hid]
    exact List.sublist_append_right _ _
  | [word] =>
    have hdash : '-' ∈ last ++ time.logText :=
      List.mem_append_right last (Timestamp.dash_mem_logText time)
    have hnone : recordId? (line ++ format time id record) = none := by
      rw [recordId?_of_words hwords, Text.numeral?_eq_none_of_mem hdash (by decide) (by decide)]
      rfl
    rw [hnone]
    exact List.nil_sublist _
  | first :: second :: earlier =>
    have hsame : recordId? (line ++ format time id record) = recordId? line := by
      rw [recordId?_of_words hwords, recordId?_of_words hline]
    rw [hsame]
    exact List.sublist_append_left _ _

/-! ## One line -/

/-- A field of a line holds neither commas nor control characters. -/
theorem plain_of_mem_fieldsOf {id : RecordId} {record : Record} (h : record.HasSensorPath)
    {field : List Char} (hf : field ∈ fieldsOf id record) {c : Char} (hc : c ∈ field) :
    c ≠ ',' ∧ Text.isControl c = false := by
  have hdigits {n : Nat} (hc : c ∈ Nat.toDigits 10 n) : c ≠ ',' ∧ Text.isControl c = false :=
    ⟨(Text.plain_of_mem_toDigits hc).2.1, (Text.plain_of_mem_toDigits hc).2.2.2⟩
  have hhex {width n : Nat} (hc : c ∈ Text.capitalHex width n) :
      c ≠ ',' ∧ Text.isControl c = false :=
    ⟨(Text.plain_of_mem_capitalHex hc).2.1, (Text.plain_of_mem_capitalHex hc).2.2.2⟩
  have hdata (hc : c ∈ Hex.encode record.data) : c ≠ ',' ∧ Text.isControl c = false := by
    obtain ⟨byte, -, hc⟩ := List.mem_flatMap.mp hc
    exact hhex hc
  simp only [fieldsOf, List.mem_append, List.mem_cons, List.not_mem_nil, or_false] at hf
  rcases hf with (rfl | rfl | rfl) | hf
  · exact hdigits hc
  · exact hhex hc
  · exact hdata hc
  · cases horigin : record.origin with
    | oem =>
      simp only [horigin, List.mem_cons, List.not_mem_nil, or_false, or_self] at hf
      simp [hf] at hc
    | system generator sensor assert =>
      simp only [horigin, List.mem_cons, List.not_mem_nil, or_false] at hf
      rcases hf with rfl | rfl | rfl
      · exact hhex hc
      · exact h sensor (by simp [Record.sensorPath?, horigin]) c hc
      · cases assert <;> simp only [Bool.false_eq_true, if_false, if_true, List.mem_singleton] at hc
          <;> subst hc <;> decide

/-- A line has no control character, and so no end of a line. -/
theorem isControl_of_mem_format {time : Timestamp} {id : RecordId} {record : Record}
    (h : record.HasSensorPath) {c : Char} (hc : c ∈ format time id record) :
    Text.isControl c = false := by
  rw [format, List.mem_append, List.mem_cons] at hc
  rcases hc with hc | rfl | hc
  · exact (Timestamp.plain_of_mem_logText hc).2.2
  · decide
  · rcases Text.mem_joined hc with rfl | ⟨field, hf, hc⟩
    · decide
    · exact (plain_of_mem_fieldsOf h hf hc).2

/-- A line is not blank. -/
theorem not_isBlankText_format (time : Timestamp) (id : RecordId) (record : Record) :
    Text.isBlankText (format time id record) = false := by
  have hdash : '-' ∈ format time id record :=
    List.mem_append_left _ (Timestamp.dash_mem_logText time)
  rw [Text.isBlankText, List.all_eq_false]
  exact ⟨'-', hdash, by decide⟩

/-! ## The whole record -/

/-- The fields of a record are cut apart where they were joined. -/
theorem fields_fieldsOf (id : RecordId) {record : Record} (h : record.HasSensorPath) :
    Text.fields ',' (Text.joined ',' (fieldsOf id record)) = fieldsOf id record := by
  refine Text.fields_joined (by simp [fieldsOf]) fun field hf hc => ?_
  exact (plain_of_mem_fieldsOf h hf hc).1 rfl

/-- A generator has four hexadecimal digits and is read back from them. -/
theorem numeral?_generator (generator : UInt16) :
    Text.numeral? 16 65536 (Text.capitalHex 4 generator.toNat) = some generator.toNat :=
  Text.numeral?_capitalHex generator.toNat_lt generator.toNat_lt

/-- **The line of a record is read back**, in the years 0 to 9999. -/
theorem ofLine?_format {time : Timestamp} (hyear : 0 ≤ time.date.year ∧ time.date.year ≤ 9999)
    (id : RecordId) {record : Record} (h : record.HasSensorPath) :
    Entry.ofLine? (format time id record) = .ok (record.entry time id) := by
  have hcut : Text.cutOnce? ' ' (format time id record)
      = some (time.logText, Text.joined ',' (fieldsOf id record)) :=
    Text.cutOnce?_append (fun hm => (Timestamp.plain_of_mem_logText hm).1 rfl) _
  have hfields := fields_fieldsOf id h
  have htime := Timestamp.ofText?_logText hyear
  have hid := Text.numeral?_toDigits id.toNat_lt
  have htype := Hex.numeral?_capitalHex record.recordType
  have hdata := Hex.decode?_encode record.data
  unfold Entry.ofLine?
  simp only [hcut, hfields]
  cases horigin : record.origin with
  | oem =>
    simp only [fieldsOf, horigin, List.cons_append, List.nil_append]
    simp [htime, hid, htype, hdata, Entry.field, Entry.direction?, Record.entry, horigin, bind,
      Except.bind, pure, Except.pure]
  | system generator sensor assert =>
    have hgenerator := numeral?_generator generator
    have hne : (Text.capitalHex 4 generator.toNat).isEmpty = false := rfl
    have hdirection : Entry.direction? (if assert then ['1'] else ['0']) = some (some assert) := by
      cases assert <;> rfl
    simp only [fieldsOf, horigin, List.cons_append, List.nil_append]
    simp [htime, hid, htype, hdata, hgenerator, hne, hdirection, Entry.field, Record.entry,
      horigin, bind, Except.bind, pure, Except.pure, Except.map]

end Line

end EventLog
