import EventLog.Proofs.Time.Calendar
import EventLog.Proofs.Text
import EventLog.Time.Reader

/-!
# EventLog.Proofs.Time.Timestamp

A point in time that a log holds is read back from its text, to the nanosecond.

* `ofText?_logText`: the years 0 to 9999, leap seconds included;
* `isTimeChar_logText`: the characters of such a text, in any year.
-/

namespace EventLog

/-! ## Numbers of a fixed width -/

namespace Text

/-- A number that fits its places is padded to as many. -/
theorem length_padded {width n : Nat} (hw : 0 < width) (h : n < 10 ^ width) :
    (padded width n).length = width := by
  have := (Nat.length_toDigits_le_iff (b := 10) (by omega) hw).mpr h
  simp only [padded, zeroPadded, List.length_append, List.length_replicate]
  omega

theorem isDigit_of_mem_padded {width n : Nat} {c : Char} (h : c ∈ padded width n) :
    c.isDigit = true := by
  simp only [padded, zeroPadded, List.mem_append, List.mem_replicate] at h
  rcases h with ⟨-, rfl⟩ | h
  · decide
  · exact Nat.isDigit_of_mem_toDigits (by omega) (by omega) h

/-- A padded number is read back. -/
theorem digits?_padded (width n : Nat) : digits? 10 0 (padded width n) = some n := by
  rw [padded, zeroPadded, digits?_replicate_zero _ _ (by omega)]
  exact digits?_toDigits (by omega) (by omega) n

end Text

namespace Timestamp

/-- Digits are read up to the most that are allowed, or to the first other character. -/
theorem takeNumber?_append {least most : Nat} {digits rest : List Char}
    (hd : ∀ c ∈ digits, c.isDigit = true) (hl : least ≤ digits.length)
    (hm : digits.length ≤ most)
    (hr : digits.length = most ∨ ∀ c ∈ rest.head?, c.isDigit = false) :
    takeNumber? least most (digits ++ rest)
      = (Text.digits? 10 0 digits).map fun n => (n, rest) := by
  have htake : ((digits ++ rest).take most).takeWhile (·.isDigit) = digits := by
    rw [List.take_append, List.take_of_length_le hm, List.takeWhile_append_of_pos hd]
    rcases hr with hr | hr
    · simp [hr]
    · cases rest with
      | nil => simp
      | cons c rest =>
        have hc : c.isDigit = false := hr c rfl
        cases most - digits.length <;> simp [hc]
  simp only [takeNumber?, htake, hl, if_true, List.drop_left]

/-- A number of a fixed width is read back. -/
theorem takeNumber?_padded {width n : Nat} (hw : 0 < width) (h : n < 10 ^ width)
    (rest : List Char) :
    takeNumber? width width (Text.padded width n ++ rest) = some (n, rest) := by
  have hl := Text.length_padded hw h
  rw [takeNumber?_append (fun _ => Text.isDigit_of_mem_padded) (by omega) (by omega) (.inl hl),
    Text.digits?_padded]
  rfl

theorem expect?_cons {allowed : List Char} {c : Char} (h : c ∈ allowed) (rest : List Char) :
    expect? allowed (c :: rest) = some rest := by
  simp [expect?, h]

/-! ## The fraction -/

/-- A fraction of so many digits is read back, in nanoseconds. -/
theorem takeFraction?_padded {width n : Nat} (hw : 0 < width) (h9 : width ≤ 9)
    (h : n < 10 ^ width) {rest : List Char} (hr : ∀ c ∈ rest.head?, c.isDigit = false) :
    takeFraction? ('.' :: Text.padded width n ++ rest) = some (n * 10 ^ (9 - width), rest) := by
  have hl := Text.length_padded hw h
  have hdrop : rest.dropWhile (·.isDigit) = rest := by
    cases rest with
    | nil => rfl
    | cons c rest => simp [show c.isDigit = false from hr c rfl]
  rw [List.cons_append, takeFraction?,
    takeNumber?_append (fun _ => Text.isDigit_of_mem_padded) (by omega) (by omega) (.inr hr),
    Text.digits?_padded]
  simp [hl, hdrop]

/-- The fraction in the fewest digits is read back. -/
theorem takeFraction?_fractionText {nano : Nat} (h : nano < 1000000000) {c : Char}
    (hc : c.isDigit = false ∧ c ≠ '.') (rest : List Char) :
    takeFraction? (fractionText nano ++ c :: rest) = some (nano, c :: rest) := by
  have hr : ∀ d ∈ (c :: rest).head?, d.isDigit = false := by
    rintro d ⟨⟩
    exact hc.1
  unfold fractionText
  split
  · next h0 => simp [takeFraction?, hc.2, h0]
  split
  · next h3 =>
    rw [takeFraction?_padded (by omega) (by omega) (by omega) hr]
    simp; omega
  split
  · next h6 =>
    rw [takeFraction?_padded (by omega) (by omega) (by omega) hr]
    simp; omega
  · rw [takeFraction?_padded (by omega) (by omega) (by omega) hr]
    simp

/-! ## The whole text -/

/-- The zone of a log's text. -/
def utcZone : List Char := ['+', '0', '0', ':', '0', '0']

theorem takeZone?_utcZone : takeZone? (expect? [':']) utcZone = some (0, []) := by decide

/-- The text of a point in time, field by field. -/
theorem exactText_append (t : Timestamp) (zone : List Char) :
    t.exactText ++ zone =
      yearText t.date.year ++ '-' :: (Text.padded 2 t.date.month ++
        '-' :: (Text.padded 2 t.date.day ++ 'T' :: (Text.padded 2 (t.secondOfDay / 3600) ++
        ':' :: (Text.padded 2 (t.secondOfDay / 60 % 60) ++
        ':' :: (Text.padded 2 (t.secondOfDay % 60 + t.nano / nanosPerSecond) ++
        (fractionText (t.nano % nanosPerSecond) ++ zone)))))) := by
  simp [exactText, clockText, dateText]

/-- The fields of a point in time have two digits, and its fraction nine. -/
structure FieldsFit (t : Timestamp) : Prop where
  month_lt : t.date.month < 10 ^ 2
  day_lt : t.date.day < 10 ^ 2
  hour_lt : t.secondOfDay / 3600 < 10 ^ 2
  minute_lt : t.secondOfDay / 60 % 60 < 10 ^ 2
  second_lt : t.secondOfDay % 60 + t.nano / nanosPerSecond < 10 ^ 2
  fraction_lt : t.nano % nanosPerSecond < 1000000000

/-- The fields of every time fit what a time of day allows. -/
theorem fieldsFit (t : Timestamp) : t.FieldsFit := by
  obtain ⟨hm1, hm12, hd1, hd31⟩ : t.date.IsValid := Date.isValid_ofDays _
  have hday : t.date.day < 10 ^ 2 := by
    refine Nat.lt_of_le_of_lt hd31 ?_
    unfold Date.daysInMonth
    split <;> (try split) <;> omega
  have hnano := t.nano_lt
  have hs : t.secondOfDay < 86400 := by simp only [secondOfDay]; omega
  have hdiv : t.nano / nanosPerSecond = t.nano / 1000000000 := rfl
  have hmod : t.nano % nanosPerSecond = t.nano % 1000000000 := rfl
  constructor <;> omega

/-- The days of the years 0 to 9999 lie well within the range of points in time. -/
theorem toDays_bounds {d : Date} (h : 0 ≤ d.year ∧ d.year ≤ 9999) (hd : d.IsValid) :
    -1000000 ≤ d.toDays ∧ d.toDays ≤ 4000000 := by
  obtain ⟨-, -, h1, h31⟩ := hd
  have hday : d.day ≤ 31 := by
    refine h31.trans ?_
    unfold Date.daysInMonth
    split <;> (try split) <;> omega
  simp only [Date.toDays, Date.cycleDays, Date.epochDays]
  split <;> omega

/-- The seconds that a point in time can have. -/
def InRange (t : Timestamp) : Prop := earliestSecond ≤ t.second ∧ t.second ≤ latestSecond

instance (t : Timestamp) : Decidable t.InRange := inferInstanceAs (Decidable (_ ∧ _))

/-- Times in four-digit years are in range. -/
theorem inRange_of_year {t : Timestamp} (h : 0 ≤ t.date.year ∧ t.date.year ≤ 9999) :
    t.InRange := by
  have hdays : t.date.toDays = t.second / 86400 := Date.toDays_ofDays _
  have hbounds := toDays_bounds h (Date.isValid_ofDays _)
  simp only [InRange, earliestSecond, latestSecond]
  omega

/-- The day and the time of day of a point in time give it back. -/
theorem ofClock?_self {t : Timestamp} (hrange : t.InRange) :
    ofClock? t.date (t.secondOfDay / 3600) (t.secondOfDay / 60 % 60)
      (t.secondOfDay % 60 + t.nano / nanosPerSecond) (t.nano % nanosPerSecond) 0 = some t := by
  have hvalid : t.date.IsValid := Date.isValid_ofDays _
  have hdays : t.date.toDays = t.second / 86400 := Date.toDays_ofDays _
  have hnano := t.nano_lt
  have hleap := t.nano_lt_of_mod
  have hnps : nanosPerSecond = 1000000000 := rfl
  have hdiv : t.nano / nanosPerSecond = t.nano / 1000000000 := rfl
  have hmod : t.nano % nanosPerSecond = t.nano % 1000000000 := rfl
  have hs : ((t.secondOfDay : Nat) : Int) = t.second % 86400 := by
    simp only [secondOfDay]; omega
  -- A leap second is the sixtieth of its minute, and any other stays below.
  have hparts : (if t.secondOfDay % 60 + t.nano / nanosPerSecond = 60
      then (59, t.nano % nanosPerSecond + nanosPerSecond)
      else (t.secondOfDay % 60 + t.nano / nanosPerSecond, t.nano % nanosPerSecond))
        = (t.secondOfDay % 60, t.nano) := by
    split <;> simp only [Prod.mk.injEq] <;> omega
  have hunix : t.date.toDays * 86400 + ((t.secondOfDay / 3600 * 3600
      + t.secondOfDay / 60 % 60 * 60 + t.secondOfDay % 60 : Nat) : Int) - 0 = t.second := by
    omega
  have hok : t.date.IsValid ∧ t.secondOfDay / 3600 < 24 ∧ t.secondOfDay / 60 % 60 < 60
      ∧ t.secondOfDay % 60 + t.nano / nanosPerSecond ≤ 60 := ⟨hvalid, by omega, by omega, by omega⟩
  rw [ofClock?, if_pos hok, hparts]
  simp only [hunix, if_pos (show earliestSecond ≤ t.second ∧ t.second ≤ latestSecond from hrange)]
  rw [ofUnix?, dif_pos ⟨hnano, hleap⟩]

/-- **The text of a point in time is read back**, in the years 0 to 9999. -/
theorem ofText?_logText {t : Timestamp} (h : 0 ≤ t.date.year ∧ t.date.year ≤ 9999) :
    ofText? t.logText = some t := by
  have hfit := t.fieldsFit
  have hpos : 0 < 2 := by omega
  have hback : ((t.date.year.toNat : Nat) : Int) = t.date.year := by omega
  have htext := exactText_append t utcZone
  rw [yearText, if_pos h] at htext
  rw [show t.logText = t.exactText ++ utcZone from rfl, htext, ofText?]
  refine Option.bind_eq_some_iff.mpr ⟨_, takeNumber?_padded (by omega) (by omega) _, ?_⟩
  refine Option.bind_eq_some_iff.mpr ⟨_, expect?_cons (by simp) _, ?_⟩
  refine Option.bind_eq_some_iff.mpr ⟨_, takeNumber?_padded hpos hfit.month_lt _, ?_⟩
  refine Option.bind_eq_some_iff.mpr ⟨_, expect?_cons (by simp) _, ?_⟩
  refine Option.bind_eq_some_iff.mpr ⟨_, takeNumber?_padded hpos hfit.day_lt _, ?_⟩
  refine Option.bind_eq_some_iff.mpr ⟨_, expect?_cons (by simp) _, ?_⟩
  refine Option.bind_eq_some_iff.mpr ⟨_, takeNumber?_padded hpos hfit.hour_lt _, ?_⟩
  refine Option.bind_eq_some_iff.mpr ⟨_, expect?_cons (by simp) _, ?_⟩
  refine Option.bind_eq_some_iff.mpr ⟨_, takeNumber?_padded hpos hfit.minute_lt _, ?_⟩
  refine Option.bind_eq_some_iff.mpr ⟨_, expect?_cons (by simp) _, ?_⟩
  refine Option.bind_eq_some_iff.mpr ⟨_, takeNumber?_padded hpos hfit.second_lt _, ?_⟩
  refine Option.bind_eq_some_iff.mpr
    ⟨_, takeFraction?_fractionText hfit.fraction_lt (by decide) _, ?_⟩
  refine Option.bind_eq_some_iff.mpr ⟨_, takeZone?_utcZone, ?_⟩
  show ofClock? ⟨t.date.year.toNat, t.date.month, t.date.day⟩ _ _ _ _ 0 = some t
  rw [hback]
  exact ofClock?_self (inRange_of_year h)

/-! ## Its characters -/

/-- A character that stands in the text of a point in time: a digit or a mark. -/
def IsTimeChar (c : Char) : Prop := c.isDigit = true ∨ c ∈ ['-', '+', 'T', ':', '.']

instance (c : Char) : Decidable (IsTimeChar c) := inferInstanceAs (Decidable (_ ∨ _))

theorem isTimeChar_padded {width n : Nat} : ∀ c ∈ Text.padded width n, IsTimeChar c :=
  fun _ h => .inl (Text.isDigit_of_mem_padded h)

theorem isTimeChar_yearText (year : Int) : ∀ c ∈ yearText year, IsTimeChar c := by
  unfold yearText
  split
  · exact isTimeChar_padded
  · split <;> exact List.forall_mem_cons.mpr ⟨.inr (by simp), isTimeChar_padded⟩

theorem isTimeChar_fractionText (nano : Nat) : ∀ c ∈ fractionText nano, IsTimeChar c := by
  unfold fractionText
  split
  · simp
  · split <;> (try split) <;> exact List.forall_mem_cons.mpr ⟨.inr (by simp), isTimeChar_padded⟩

/-- The text of a point in time has digits and a few marks, in any year. -/
theorem isTimeChar_logText (t : Timestamp) : ∀ c ∈ t.logText, IsTimeChar c := by
  have hmarks : ∀ c ∈ ['-', 'T', ':', '+', '0'], IsTimeChar c := by
    simp only [List.forall_mem_cons, List.not_mem_nil, false_implies, implies_true, and_true]
    decide
  intro c h
  simp only [logText, exactText, clockText, dateText, List.mem_append, List.mem_cons] at h
  grind [isTimeChar_yearText, isTimeChar_fractionText, isTimeChar_padded]

/-- The text of a point in time has no separator of a line and no control. -/
theorem plain_of_mem_logText {t : Timestamp} {c : Char} (h : c ∈ t.logText) :
    c ≠ ' ' ∧ c ≠ ',' ∧ Text.isControl c = false := by
  rcases isTimeChar_logText t c h with hd | hmark
  · obtain ⟨hs, hc, -, hctl⟩ := Text.plain_of_isDigit hd
    exact ⟨hs, hc, hctl⟩
  · simp only [List.mem_cons, List.not_mem_nil, or_false] at hmark
    rcases hmark with rfl | rfl | rfl | rfl | rfl <;> decide

/-- Behind the year stands a dash. -/
theorem dash_mem_logText (t : Timestamp) : '-' ∈ t.logText := by
  simp [logText, exactText, clockText, dateText]

end Timestamp

end EventLog
