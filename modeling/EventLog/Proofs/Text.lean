import EventLog.Hex
import EventLog.Text.Fields
import EventLog.Text.Blank

/-!
# EventLog.Proofs.Text

Texts cut at a separator, and numerals that are read back.

* `fields_joined`: fields that hold no separator are cut apart again;
* `fields_append_sep`: a text is cut at a separator wherever it stands;
* `exists_last_field`: what is added to a text goes on in its last field;
* `eq_append_of_cutOnce?`: a text is cut once at its first separator;
* `numeral?_toDigits`, `numeral?_capitalHex`: numbers that were written in
  decimal or in capital hexadecimal digits are read back below the limit.
-/

namespace EventLog.Text

/-! ## Fields -/

/-- A text is cut at a separator wherever it stands. -/
theorem fields_append_sep (sep : Char) (front rest : List Char) :
    fields sep (front ++ sep :: rest) = fields sep front ++ fields sep rest := by
  induction front with
  | nil => exact fields_cons_self sep rest
  | cons c front ih =>
    by_cases hc : c = sep
    · subst hc
      rw [List.cons_append, fields_cons_self, ih, fields_cons_self, List.cons_append]
    · simp only [fields, List.cons_append] at ih ⊢
      simp only [cut, hc, if_false]
      rw [List.cons.injEq] at ih
      simp [ih]

/-- Fields that hold no separator are cut apart again. -/
theorem fields_joined {sep : Char} {texts : List (List Char)} (hne : texts ≠ [])
    (h : ∀ text ∈ texts, sep ∉ text) : fields sep (joined sep texts) = texts := by
  induction texts with
  | nil => exact absurd rfl hne
  | cons text texts ih =>
    have htext := h text List.mem_cons_self
    cases texts with
    | nil => exact fields_of_not_mem htext
    | cons next texts =>
      rw [joined, fields_append htext,
        ih (by simp) fun t ht => h t (List.mem_cons_of_mem text ht)]
      simp

/-- What is added to a text goes on in its last field. -/
theorem exists_last_field (sep : Char) (text : List Char) :
    ∃ pieces last, fields sep text = pieces ++ [last] ∧
      ∀ rest first others, fields sep rest = first :: others →
        fields sep (text ++ rest) = pieces ++ (last ++ first) :: others := by
  induction text with
  | nil => exact ⟨[], [], rfl, fun rest first others h => h⟩
  | cons c text ih =>
    obtain ⟨pieces, last, hfields, hrest⟩ := ih
    by_cases hc : c = sep
    · subst hc
      refine ⟨[] :: pieces, last, ?_, fun rest first others h => ?_⟩
      · rw [fields_cons_self, hfields, List.cons_append]
      · rw [List.cons_append, fields_cons_self, hrest rest first others h, List.cons_append]
    · have hcons {text first : List Char} {others : List (List Char)}
          (h : fields sep text = first :: others) :
          fields sep (c :: text) = (c :: first) :: others := by
        rw [fields, List.cons.injEq] at h
        rw [fields_cons_of_ne hc, h.1, h.2]
      cases pieces with
      | nil =>
        exact ⟨[], c :: last, hcons hfields,
          fun rest first others h => hcons (hrest rest first others h)⟩
      | cons piece pieces =>
        exact ⟨(c :: piece) :: pieces, last, hcons hfields,
          fun rest first others h => hcons (hrest rest first others h)⟩

/-- A field holds characters of the text only. -/
theorem mem_of_mem_fields {sep : Char} {text field : List Char} (hf : field ∈ fields sep text)
    {c : Char} (hc : c ∈ field) : c ∈ text := by
  induction text generalizing field with
  | nil =>
    rw [fields_nil, List.mem_singleton] at hf
    exact hf ▸ hc
  | cons d text ih =>
    by_cases hd : d = sep
    · rw [hd, fields_cons_self, List.mem_cons] at hf
      rcases hf with rfl | hf
      · exact absurd hc List.not_mem_nil
      · exact List.mem_cons_of_mem d (ih hf hc)
    · rw [fields_cons_of_ne hd, List.mem_cons] at hf
      rcases hf with rfl | hf
      · rcases List.mem_cons.mp hc with rfl | hc
        · exact List.mem_cons_self
        · exact List.mem_cons_of_mem d (ih List.mem_cons_self hc)
      · exact List.mem_cons_of_mem d (ih (List.mem_cons_of_mem _ hf) hc)

/-- A text is cut once at its first separator. -/
theorem eq_append_of_cutOnce? {sep : Char} {text front rest : List Char}
    (h : cutOnce? sep text = some (front, rest)) : text = front ++ sep :: rest ∧ sep ∉ front := by
  induction text generalizing front with
  | nil => cases h
  | cons c text ih =>
    by_cases hc : c = sep
    · rw [cutOnce?, if_pos hc, Option.some.injEq, Prod.mk.injEq] at h
      obtain ⟨rfl, rfl⟩ := h
      exact ⟨by rw [hc, List.nil_append], List.not_mem_nil⟩
    · rw [cutOnce?, if_neg hc] at h
      obtain ⟨⟨before, behind⟩, hcut, h⟩ := Option.map_eq_some_iff.mp h
      obtain ⟨rfl, rfl⟩ := Prod.mk.inj h
      obtain ⟨rfl, hfront⟩ := ih hcut
      exact ⟨rfl, by simp [Ne.symm hc, hfront]⟩

theorem mem_joined {sep : Char} {texts : List (List Char)} {c : Char} (h : c ∈ joined sep texts) :
    c = sep ∨ ∃ text ∈ texts, c ∈ text := by
  induction texts with
  | nil => simp [joined] at h
  | cons text texts ih =>
    cases texts with
    | nil => exact .inr ⟨text, List.mem_cons_self, h⟩
    | cons next texts =>
      simp only [joined, List.mem_append, List.mem_cons] at h
      rcases h with h | rfl | h
      · exact .inr ⟨text, List.mem_cons_self, h⟩
      · exact .inl rfl
      · rcases ih h with rfl | ⟨other, hother, hc⟩
        · exact .inl rfl
        · exact .inr ⟨other, List.mem_cons_of_mem text hother, hc⟩

/-! ## Numerals -/

theorem unsigned_of_not_plus {text : List Char} (h : '+' ∉ text) : unsigned text = text := by
  unfold unsigned
  split
  · simp at h
  · rfl

/-- A character that is no digit makes the whole text no number. -/
theorem digits?_eq_none_of_mem {base : Nat} {text : List Char} {c : Char} (hc : c ∈ text)
    (hdigit : digit? base c = none) (value : Nat) : digits? base value text = none := by
  induction text generalizing value with
  | nil => simp at hc
  | cons d text ih =>
    rcases List.mem_cons.mp hc with rfl | hc
    · simp [digits?, hdigit]
    · rw [digits?]
      split
      · exact ih hc _
      · rfl

/-- A text with a character that is neither a digit nor a sign is no numeral. -/
theorem numeral?_eq_none_of_mem {base limit : Nat} {text : List Char} {c : Char} (hc : c ∈ text)
    (hplus : c ≠ '+') (hdigit : digit? base c = none) : numeral? base limit text = none := by
  have hmem : c ∈ unsigned text := by
    unfold unsigned
    split
    · exact (List.mem_cons.mp hc).resolve_left hplus
    · exact hc
  rw [numeral?, number?.eq_def]
  split
  · rfl
  · next d rest htext =>
    rw [htext] at hmem
    rw [digits?_eq_none_of_mem hmem hdigit]
    rfl

/-- A blank is no digit. -/
theorem digit?_of_isBlank {base : Nat} {c : Char} (h : isBlank c = true) : digit? base c = none := by
  have hvalue : digitValue c = none := by
    simp only [isBlank, Bool.or_eq_true, Bool.and_eq_true, decide_eq_true_eq, beq_iff_eq] at h
    have hle (a b : Char) : a ≤ b ↔ a.toNat ≤ b.toNat := Iff.rfl
    have hzero : '0'.toNat = 48 ∧ '9'.toNat = 57 := ⟨rfl, rfl⟩
    have hsmall : 'a'.toNat = 97 ∧ 'f'.toNat = 102 := ⟨rfl, rfl⟩
    have hcapital : 'A'.toNat = 65 ∧ 'F'.toNat = 70 := ⟨rfl, rfl⟩
    simp only [digitValue, hle]
    rw [if_neg (by omega), if_neg (by omega), if_neg (by omega)]
  rw [digit?, hvalue]
  rfl

/-- A decimal digit is no separator, sign or control. -/
theorem plain_of_isDigit {c : Char} (h : c.isDigit = true) :
    c ≠ ' ' ∧ c ≠ ',' ∧ c ≠ '+' ∧ isControl c = false := by
  have hrange : 48 ≤ c.toNat ∧ c.toNat ≤ 57 := by
    simp only [Char.isDigit, Bool.and_eq_true, decide_eq_true_eq] at h
    exact h
  have hne {d : Char} (hd : d.isDigit = false) : c ≠ d := by
    rintro rfl
    simp [hd] at h
  refine ⟨hne (by decide), hne (by decide), hne (by decide), ?_⟩
  simp only [isControl, Bool.or_eq_false_iff, Bool.and_eq_false_iff, decide_eq_false_iff_not]
  omega

theorem plain_of_mem_toDigits {n : Nat} {c : Char} (h : c ∈ Nat.toDigits 10 n) :
    c ≠ ' ' ∧ c ≠ ',' ∧ c ≠ '+' ∧ isControl c = false :=
  plain_of_isDigit (Nat.isDigit_of_mem_toDigits (by omega) (by omega) h)

/-- The decimal digits of a number below the limit are read back. -/
theorem numeral?_toDigits {limit n : Nat} (h : n < limit) :
    numeral? 10 limit (Nat.toDigits 10 n) = some n := by
  have hplus : '+' ∉ Nat.toDigits 10 n := fun hm => (plain_of_mem_toDigits hm).2.2.1 rfl
  rw [numeral?, unsigned_of_not_plus hplus, number?_toDigits (by omega) (by omega)]
  simp [h]

theorem mem_capitalHex {width n : Nat} {c : Char} (h : c ∈ capitalHex width n) :
    ∃ d : Fin 16, c = capitalDigit d := by
  induction width generalizing n with
  | zero => simp [capitalHex] at h
  | succ width ih =>
    rw [capitalHex, List.mem_append, List.mem_singleton] at h
    rcases h with h | rfl
    · exact ih h
    · exact ⟨⟨n % 16, Nat.mod_lt _ (by omega)⟩, rfl⟩

/-- The characters of capital hexadecimal digits are no separators, signs or controls. -/
theorem plain_of_mem_capitalHex {width n : Nat} {c : Char} (h : c ∈ capitalHex width n) :
    c ≠ ' ' ∧ c ≠ ',' ∧ c ≠ '+' ∧ isControl c = false := by
  obtain ⟨d, rfl⟩ := mem_capitalHex h
  clear h
  revert d
  decide

/-- Capital hexadecimal digits of a number below the limit are read back. -/
theorem numeral?_capitalHex {width limit n : Nat} (hw : n < Nat.pow 16 (width + 1))
    (h : n < limit) : numeral? 16 limit (capitalHex (width + 1) n) = some n := by
  have hplus : '+' ∉ capitalHex (width + 1) n := fun hm => (plain_of_mem_capitalHex hm).2.2.1 rfl
  have hread := digits?_capitalHex hw
  have hlength := length_capitalHex (width + 1) n
  rw [numeral?, unsigned_of_not_plus hplus]
  cases hd : capitalHex (width + 1) n with
  | nil => simp [hd] at hlength
  | cons c rest =>
    rw [hd] at hread
    simp [number?, hread, h]

end EventLog.Text
