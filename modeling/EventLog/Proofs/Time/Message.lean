import EventLog.Proofs.Time.Timestamp

/-!
# EventLog.Proofs.Time.Message

Points in time as messages have them.

* `inRange_of_ofText?`: what a log holds is in the range of points in time;
* `ofMessage?_messageText`: a point in time in that range is read back from its text;
* `length_messageText_le`: which is short.
-/

namespace EventLog.Timestamp

/-- A time made of what a clock shows is in range. -/
theorem inRange_of_ofClock? {date : Date} {hour minute second nano : Nat} {ahead : Int}
    {t : Timestamp} (h : ofClock? date hour minute second nano ahead = some t) : t.InRange := by
  rw [ofClock?, Option.ite_none_right_eq_some] at h
  obtain ⟨-, h⟩ := h
  dsimp only at h
  rw [Option.ite_none_right_eq_some, ofUnix?, Option.dite_none_right_eq_some] at h
  obtain ⟨hrange, _, h⟩ := h
  rw [← Option.some.inj h]
  exact hrange

/-- What a log holds is in the range of points in time. -/
theorem inRange_of_ofText? {text : List Char} {t : Timestamp} (h : ofText? text = some t) :
    t.InRange := by
  rw [ofText?] at h
  -- Thirteen parts are read before the clock is asked, and none of them matters here.
  iterate 13 obtain ⟨_, -, h⟩ := Option.bind_eq_some_iff.mp h
  exact inRange_of_ofClock? (Option.ite_none_right_eq_some.mp h).2

/-! ## Numbers behind blanks -/

theorem trimmedLeft_cons {c : Char} (h : Text.isBlank c = false) (rest : List Char) :
    Text.trimmedLeft (c :: rest) = c :: rest := by
  rw [Text.trimmedLeft, List.dropWhile_cons_of_neg (by rw [h]; exact Bool.false_ne_true)]

theorem isBlank_of_isDigit {c : Char} (h : c.isDigit = true) : Text.isBlank c = false := by
  have hrange : 48 ≤ c.toNat ∧ c.toNat ≤ 57 := by
    simp only [Char.isDigit, Bool.and_eq_true, decide_eq_true_eq] at h
    exact h
  rw [← Bool.not_eq_true]
  intro hblank
  simp only [Text.isBlank, Bool.or_eq_true, Bool.and_eq_true, decide_eq_true_eq,
    beq_iff_eq] at hblank
  omega

theorem exists_padded_eq_cons (width n : Nat) :
    ∃ c more, Text.padded width n = c :: more ∧ c.isDigit = true := by
  have hne : Text.padded width n ≠ [] := by
    intro h
    rw [Text.padded, Text.zeroPadded, List.append_eq_nil_iff] at h
    exact Text.toDigits_ne_nil (by omega) n h.2
  obtain ⟨c, more, h⟩ := List.exists_cons_of_ne_nil hne
  exact ⟨c, more, h, Text.isDigit_of_mem_padded (h ▸ List.mem_cons_self)⟩

theorem trimmedLeft_padded (width n : Nat) (rest : List Char) :
    Text.trimmedLeft (Text.padded width n ++ rest) = Text.padded width n ++ rest := by
  obtain ⟨c, more, h, hdigit⟩ := exists_padded_eq_cons width n
  rw [h, List.cons_append, trimmedLeft_cons (isBlank_of_isDigit hdigit)]

/-- A number of two places is read back, blanks before it allowed. -/
theorem takeLoose?_padded {n : Nat} (h : n < 10 ^ 2) (rest : List Char) :
    takeLoose? 2 (Text.padded 2 n ++ rest) = some (n, rest) := by
  have hl := Text.length_padded (by omega) h
  rw [takeLoose?, trimmedLeft_padded, takeNumber?_append
    (fun _ => Text.isDigit_of_mem_padded) (by omega) (by omega) (.inl hl), Text.digits?_padded]
  rfl

/-- Digits behind a sign are read, however many there are. -/
theorem takeNumber?_signed (n : Nat) (rest : List Char) :
    takeNumber? 1 (Text.padded 4 n ++ '-' :: rest).length (Text.padded 4 n ++ '-' :: rest)
      = some (n, '-' :: rest) := by
  have hlength : 1 ≤ (Text.padded 4 n).length := by
    obtain ⟨c, more, h, -⟩ := exists_padded_eq_cons 4 n
    rw [h, List.length_cons]
    omega
  have hdash : ∀ c ∈ ('-' :: rest).head?, c.isDigit = false := by
    rintro _ ⟨⟩
    rfl
  rw [takeNumber?_append (fun _ => Text.isDigit_of_mem_padded) hlength (by simp) (.inr hdash),
    Text.digits?_padded]
  rfl

/-- A year is read back, up to the dash behind it. -/
theorem takeYear?_yearText (year : Int) (rest : List Char) :
    takeYear? (yearText year ++ '-' :: rest) = some (year, '-' :: rest) := by
  unfold yearText
  split
  · next h =>
    have hl := Text.length_padded (by omega) (by omega : year.toNat < 10 ^ 4)
    have hnumber : takeNumber? 1 4 (Text.padded 4 year.toNat ++ '-' :: rest)
        = some (year.toNat, '-' :: rest) := by
      rw [takeNumber?_append (fun _ => Text.isDigit_of_mem_padded) (by omega) (by omega) (.inl hl),
        Text.digits?_padded]
      rfl
    obtain ⟨c, more, hfront, hdigit⟩ := exists_padded_eq_cons 4 year.toNat
    rw [takeYear?, trimmedLeft_padded]
    rw [hfront, List.cons_append] at hnumber ⊢
    split
    · next h => cases h; cases hdigit
    · next h => cases h; cases hdigit
    · simp only [hnumber, Option.map_some, Int.toNat_of_nonneg h.1]
  · split
    · next hneg =>
      rw [List.cons_append, takeYear?, trimmedLeft_cons (by rfl)]
      simp only [takeNumber?_signed, Option.map_some]
      congr 2
      omega
    · next hrange hneg =>
      rw [List.cons_append, takeYear?, trimmedLeft_cons (by rfl)]
      simp only [takeNumber?_signed, Option.map_some]
      congr 2
      omega

/-! ## The whole text -/

/-- **The text of a point in time is read back** from a message. -/
theorem ofMessage?_messageText {t : Timestamp} (h : t.InRange) :
    ofMessage? t.messageText.toList = some t := by
  have hfit := t.fieldsFit
  have htext : t.messageText.toList = t.exactText ++ ['Z'] := String.toList_ofList
  have hzone : takeNamedZone? ['Z'] = some (0, []) := by decide
  have hdash (rest : List Char) : expect? ['-'] (Text.trimmedLeft ('-' :: rest)) = some rest := by
    rw [trimmedLeft_cons (by decide), expect?_cons (by simp)]
  have hcolon (rest : List Char) : expect? [':'] (Text.trimmedLeft (':' :: rest)) = some rest := by
    rw [trimmedLeft_cons (by decide), expect?_cons (by simp)]
  rw [htext, exactText_append, ofMessage?]
  refine Option.bind_eq_some_iff.mpr ⟨_, takeYear?_yearText _ _, ?_⟩
  refine Option.bind_eq_some_iff.mpr ⟨_, hdash _, ?_⟩
  refine Option.bind_eq_some_iff.mpr ⟨_, takeLoose?_padded hfit.month_lt _, ?_⟩
  refine Option.bind_eq_some_iff.mpr ⟨_, hdash _, ?_⟩
  refine Option.bind_eq_some_iff.mpr ⟨_, takeLoose?_padded hfit.day_lt _, ?_⟩
  refine Option.bind_eq_some_iff.mpr ⟨_, expect?_cons (by simp) _, ?_⟩
  refine Option.bind_eq_some_iff.mpr ⟨_, takeLoose?_padded hfit.hour_lt _, ?_⟩
  refine Option.bind_eq_some_iff.mpr ⟨_, hcolon _, ?_⟩
  refine Option.bind_eq_some_iff.mpr ⟨_, takeLoose?_padded hfit.minute_lt _, ?_⟩
  refine Option.bind_eq_some_iff.mpr ⟨_, hcolon _, ?_⟩
  refine Option.bind_eq_some_iff.mpr ⟨_, takeLoose?_padded hfit.second_lt _, ?_⟩
  refine Option.bind_eq_some_iff.mpr
    ⟨_, takeFraction?_fractionText hfit.fraction_lt (by decide) _, ?_⟩
  exact Option.bind_eq_some_iff.mpr ⟨_, hzone, ofClock?_self h⟩

/-! ## Its length -/

/-- Padding to no more than the places allowed keeps a number within them. -/
theorem length_padded_le {width most n : Nat} (hw : width ≤ most) (hm : 0 < most)
    (h : n < 10 ^ most) : (Text.padded width n).length ≤ most := by
  have := (Nat.length_toDigits_le_iff (b := 10) (by omega) hm).mpr h
  simp only [Text.padded, Text.zeroPadded, List.length_append, List.length_replicate]
  omega

/-- A year is one of the four hundred of its cycle, or follows them. -/
theorem year_ofDays_bounds (days : Int) :
    (days + Date.epochDays) / Date.cycleDays * 400 ≤ (Date.ofDays days).year ∧
      (Date.ofDays days).year ≤ (days + Date.epochDays) / Date.cycleDays * 400 + 402 := by
  have hmarch (c : Prop) [Decidable c] (y : Int) :
      y ≤ (if c then y else y + 1) ∧ (if c then y else y + 1) ≤ y + 1 := by
    split <;> omega
  refine ⟨le_trans ?_ (hmarch _ _).1, (hmarch _ _).2.trans ?_⟩ <;>
    simp only [Date.epochDays, Date.cycleDays] <;> omega

/-- The year of a time in range takes seven characters at most. -/
theorem length_yearText_le {t : Timestamp} (h : t.InRange) :
    (yearText t.date.year).length ≤ 7 := by
  have hyear : t.date.year.natAbs < 10 ^ 6 := by
    have hbounds := year_ofDays_bounds (t.second / 86400)
    simp only [InRange, earliestSecond, latestSecond] at h
    simp only [Date.epochDays, Date.cycleDays] at hbounds
    rw [date]
    omega
  have hdigits := length_padded_le (by omega : 4 ≤ 6) (by omega) hyear
  unfold yearText
  split
  · rw [Text.length_padded (by omega) (by omega)]
    omega
  · split <;>
    · rw [List.length_cons]
      omega

/-- The fraction of a second takes ten characters at most. -/
theorem length_fractionText_le {nano : Nat} (h : nano < 1000000000) :
    (fractionText nano).length ≤ 10 := by
  have hpoint (width n : Nat) (hw : width ≤ 9) (hn : n ≤ nano) :
      ('.' :: Text.padded width n).length ≤ 10 := by
    have := length_padded_le hw (by omega) (Nat.lt_of_le_of_lt hn h)
    rw [List.length_cons]
    omega
  unfold fractionText
  split
  · exact Nat.zero_le 10
  · split
    · exact hpoint 3 _ (by omega) (Nat.div_le_self ..)
    · split
      · exact hpoint 6 _ (by omega) (Nat.div_le_self ..)
      · exact hpoint 9 _ (by omega) (Nat.le_refl nano)

/-- The text of a point in time is short. -/
theorem length_messageText_le {t : Timestamp} (h : t.InRange) :
    t.messageText.toList.length ≤ 40 := by
  have hfit := t.fieldsFit
  have hyear := length_yearText_le h
  have hfraction := length_fractionText_le hfit.fraction_lt
  rw [messageText, String.toList_ofList, exactText_append]
  simp only [List.length_append, List.length_cons, List.length_nil,
    Text.length_padded (by omega) hfit.month_lt, Text.length_padded (by omega) hfit.day_lt,
    Text.length_padded (by omega) hfit.hour_lt, Text.length_padded (by omega) hfit.minute_lt,
    Text.length_padded (by omega) hfit.second_lt]
  omega

end EventLog.Timestamp
