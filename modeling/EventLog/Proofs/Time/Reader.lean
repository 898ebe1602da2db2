import EventLog.Time.Reader

/-!
# EventLog.Proofs.Time.Reader

Which characters the strict form of a point in time can have.

No part of the form passes over a foreign character (`IsForeign`), so one that stands
in a text is still there when the text should be at its end.

* `mem_of_takeNumber?`, `mem_of_expect?`, `mem_of_takeFraction?`, `mem_of_takeZone?`:
  what each part leaves;
* `not_mem_of_ofText?`: a text that was read has no foreign character.
-/

namespace EventLog.Timestamp

variable {c : Char} {text rest : List Char}

/-- What the strict form has besides digits. -/
def marks : List Char := ['-', 'T', 't', ' ', ':', '.', 'Z', 'z', '+', '−']

/-- A character is neither a digit nor one of the marks. -/
def IsForeign (c : Char) : Prop := c.isDigit = false ∧ c ∉ marks

instance (c : Char) : Decidable (IsForeign c) := inferInstanceAs (Decidable (_ ∧ _))

theorem IsForeign.not_mem (h : IsForeign c) {allowed : List Char} (ha : allowed ⊆ marks) :
    c ∉ allowed := fun hm => h.2 (ha hm)

/-! ## The parts of the form -/

theorem not_mem_takeWhile_isDigit (hd : c.isDigit = false) : c ∉ text.takeWhile (·.isDigit) := by
  intro hc
  have hdigit := List.all_eq_true.mp (List.all_takeWhile (p := (·.isDigit)) (l := text)) c hc
  rw [hd] at hdigit
  cases hdigit

theorem mem_dropWhile_isDigit (hd : c.isDigit = false) (hc : c ∈ text) :
    c ∈ text.dropWhile (·.isDigit) := by
  rw [← List.takeWhile_append_dropWhile (p := (·.isDigit)) (l := text), List.mem_append] at hc
  exact hc.resolve_left (not_mem_takeWhile_isDigit hd)

/-- A number takes no character but digits. -/
theorem mem_of_takeNumber? {least most n : Nat} (h : takeNumber? least most text = some (n, rest))
    (hd : c.isDigit = false) (hc : c ∈ text) : c ∈ rest := by
  rw [takeNumber?, Option.ite_none_right_eq_some] at h
  obtain ⟨-, h⟩ := h
  obtain ⟨_, -, h⟩ := Option.map_eq_some_iff.mp h
  rw [← (Prod.mk.inj h).2]
  -- The digits that are passed over stand in front, and the character is none of them.
  have hfront : (text.take most).takeWhile (·.isDigit) <+: text :=
    (List.takeWhile_prefix _).trans (List.take_prefix most text)
  obtain ⟨behind, hbehind⟩ := hfront
  rw [← hbehind, List.mem_append] at hc
  have hrest := hc.resolve_left (not_mem_takeWhile_isDigit hd)
  have hdrop := @List.drop_left Char ((text.take most).takeWhile (·.isDigit)) behind
  rw [hbehind] at hdrop
  rwa [hdrop]

/-- An expected mark takes no other character. -/
theorem mem_of_expect? {allowed : List Char} (h : expect? allowed text = some rest)
    (hn : c ∉ allowed) (hc : c ∈ text) : c ∈ rest := by
  cases text with
  | nil => cases hc
  | cons d text =>
    rw [expect?, Option.ite_none_right_eq_some, Option.some.injEq] at h
    obtain ⟨hd, rfl⟩ := h
    rcases List.mem_cons.mp hc with rfl | hc
    · exact absurd hd hn
    · exact hc

/-- A fraction takes no foreign character. -/
theorem mem_of_takeFraction? {nano : Nat} (h : takeFraction? text = some (nano, rest))
    (hf : IsForeign c) (hc : c ∈ text) : c ∈ rest := by
  unfold takeFraction? at h
  split at h
  · next text =>
    obtain ⟨⟨n, behind⟩, hnumber, h⟩ := Option.map_eq_some_iff.mp h
    rw [← (Prod.mk.inj h).2]
    have hc := (List.mem_cons.mp hc).resolve_left fun hdot => hf.2 (by simp [hdot, marks])
    exact mem_dropWhile_isDigit hf.1 (mem_of_takeNumber? hnumber hf.1 hc)
  · rw [← (Prod.mk.inj (Option.some.inj h)).2]
    exact hc

/-- A zone takes no foreign character. -/
theorem mem_of_takeZone? {ahead : Int} (h : takeZone? (expect? [':']) text = some (ahead, rest))
    (hf : IsForeign c) (hc : c ∈ text) : c ∈ rest := by
  have hne {d : Char} (hd : d ∈ marks) : c ≠ d := fun e => hf.2 (e ▸ hd)
  cases text with
  | nil => cases hc
  | cons d text =>
    rw [takeZone?] at h
    split at h
    · next hzulu =>
      rw [← (Prod.mk.inj (Option.some.inj h)).2]
      refine (List.mem_cons.mp hc).resolve_left ?_
      rcases hzulu with rfl | rfl <;> exact hne (by simp [marks])
    · rw [Option.ite_none_right_eq_some] at h
      obtain ⟨hsign, h⟩ := h
      have hc : c ∈ text := by
        refine (List.mem_cons.mp hc).resolve_left ?_
        rcases hsign with rfl | rfl | rfl <;> exact hne (by simp [marks])
      obtain ⟨⟨hours, text₁⟩, hhours, h⟩ := Option.bind_eq_some_iff.mp h
      obtain ⟨text₂, hcolon, h⟩ := Option.bind_eq_some_iff.mp h
      obtain ⟨⟨minutes, text₃⟩, hminutes, h⟩ := Option.bind_eq_some_iff.mp h
      have hrest := (Option.ite_none_right_eq_some.mp h).2
      rw [← (Prod.mk.inj (Option.some.inj hrest)).2]
      exact mem_of_takeNumber? hminutes hf.1 <|
        mem_of_expect? hcolon (hf.not_mem (by simp [marks])) <| mem_of_takeNumber? hhours hf.1 hc

/-! ## The whole form -/

/-- **A text in the strict form has no foreign character.** -/
theorem not_mem_of_ofText? {t : Timestamp} (h : ofText? text = some t) (hf : IsForeign c) :
    c ∉ text := by
  intro hc
  have hdash : c ∉ ['-'] := hf.not_mem (by simp [marks])
  have hcolon : c ∉ [':'] := hf.not_mem (by simp [marks])
  rw [ofText?] at h
  obtain ⟨⟨year, text₁⟩, hyear, h⟩ := Option.bind_eq_some_iff.mp h
  obtain ⟨text₂, hdash₁, h⟩ := Option.bind_eq_some_iff.mp h
  obtain ⟨⟨month, text₃⟩, hmonth, h⟩ := Option.bind_eq_some_iff.mp h
  obtain ⟨text₄, hdash₂, h⟩ := Option.bind_eq_some_iff.mp h
  obtain ⟨⟨day, text₅⟩, hday, h⟩ := Option.bind_eq_some_iff.mp h
  obtain ⟨text₆, hclock, h⟩ := Option.bind_eq_some_iff.mp h
  obtain ⟨⟨hour, text₇⟩, hhour, h⟩ := Option.bind_eq_some_iff.mp h
  obtain ⟨text₈, hcolon₁, h⟩ := Option.bind_eq_some_iff.mp h
  obtain ⟨⟨minute, text₉⟩, hminute, h⟩ := Option.bind_eq_some_iff.mp h
  obtain ⟨text₁₀, hcolon₂, h⟩ := Option.bind_eq_some_iff.mp h
  obtain ⟨⟨second, text₁₁⟩, hsecond, h⟩ := Option.bind_eq_some_iff.mp h
  obtain ⟨⟨nano, text₁₂⟩, hnano, h⟩ := Option.bind_eq_some_iff.mp h
  obtain ⟨⟨ahead, text₁₃⟩, hzone, h⟩ := Option.bind_eq_some_iff.mp h
  -- The character is behind the year, behind the month, and so on to the end.
  have hday₀ : c ∈ text₄ := mem_of_expect? hdash₂ hdash <| mem_of_takeNumber? hmonth hf.1 <|
    mem_of_expect? hdash₁ hdash <| mem_of_takeNumber? hyear hf.1 hc
  have hclock₀ : c ∈ text₆ := mem_of_expect? hclock (hf.not_mem (by simp [marks])) <|
    mem_of_takeNumber? hday hf.1 hday₀
  have hsecond₀ : c ∈ text₁₀ := mem_of_expect? hcolon₂ hcolon <| mem_of_takeNumber? hminute hf.1 <|
    mem_of_expect? hcolon₁ hcolon <| mem_of_takeNumber? hhour hf.1 hclock₀
  have hend : c ∈ text₁₃ := mem_of_takeZone? hzone hf <| mem_of_takeFraction? hnano hf <|
    mem_of_takeNumber? hsecond hf.1 hsecond₀
  have hempty := (Option.ite_none_right_eq_some.mp h).1
  rw [List.isEmpty_iff] at hempty
  rw [hempty] at hend
  cases hend

/-- The empty text is no point in time. -/
theorem ne_nil_of_ofText? {t : Timestamp} (h : ofText? text = some t) : text ≠ [] := by
  rintro rfl
  cases h

end EventLog.Timestamp
