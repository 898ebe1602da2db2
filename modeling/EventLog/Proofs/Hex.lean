import EventLog.Hex
import Mathlib.Data.List.Induction

/-!
# EventLog.Proofs.Hex

Which texts name bytes.

* `numeral?_pair`: the value of a pair is that of its two digits, and a plus sign
  counts as a zero in front;
* `IsPaired`: the texts that are made of such pairs;
* `pairs?_of_isPaired`, `pairs?_of_not_isPaired`: those are read, and no others;
* `reads_pairs_of_digits`: bytes that were read are written with the digits that
  they were read from, letters in capitals.
-/

namespace EventLog.Hex

/-! ## Digits -/

/-- A digit of base sixteen, letters in either case. -/
def IsDigit (c : Char) : Prop := '0' ≤ c ∧ c ≤ '9' ∨ 'a' ≤ c ∧ c ≤ 'f' ∨ 'A' ≤ c ∧ c ≤ 'F'

instance (c : Char) : Decidable (IsDigit c) := inferInstanceAs (Decidable (_ ∨ _))

/-- The digit that is written where a character was read. -/
def capital (c : Char) : Char := if c = '+' then '0' else c.toUpper

variable {c high low : Char} {text : List Char}

/-- Hexadecimal digits are ASCII. -/
theorem IsDigit.toNat_lt (h : IsDigit c) : c.toNat < 128 := by
  have hle {a b : Char} (hab : a ≤ b) : a.toNat ≤ b.toNat := hab
  have hlast : '9'.toNat < 128 ∧ 'f'.toNat < 128 ∧ 'F'.toNat < 128 := by decide
  rcases h with h | h | h
  · exact Nat.lt_of_le_of_lt (hle h.2) hlast.1
  · exact Nat.lt_of_le_of_lt (hle h.2) hlast.2.1
  · exact Nat.lt_of_le_of_lt (hle h.2) hlast.2.2

/-- A digit has a value below sixteen, and is written as the capital digit of it. -/
theorem IsDigit.exists_value (h : IsDigit c) :
    ∃ d < 16, Text.digit? 16 c = some d ∧ Text.capitalDigit d = capital c := by
  have hascii : ∀ n < 128, IsDigit (Char.ofNat n) →
      ∃ d < 16, Text.digit? 16 (Char.ofNat n) = some d ∧
        Text.capitalDigit d = capital (Char.ofNat n) := by
    decide +kernel
  have hc := hascii c.toNat h.toNat_lt
  rw [Char.ofNat_toNat] at hc
  exact hc h

/-- A character that is no hexadecimal digit has no value. -/
theorem digit?_of_not_isDigit (h : ¬ IsDigit c) : Text.digit? 16 c = none := by
  simp only [IsDigit, not_or] at h
  rw [Text.digit?, Text.digitValue, if_neg h.1, if_neg h.2.1, if_neg h.2.2, Option.filter_none]

/-! ## Pairs -/

/-- Two digits, or a plus sign and a digit. -/
def IsPair (high low : Char) : Prop := (IsDigit high ∨ high = '+') ∧ IsDigit low

/-- The value of the first character of a pair. -/
def lead? (c : Char) : Option Nat := if c = '+' then some 0 else Text.digit? 16 c

/-- A pair is read as its first digit, or a plus sign, and its second one. -/
theorem numeral?_pair (high low : Char) :
    Text.numeral? 16 256 [high, low] =
      ((lead? high).bind fun d => (Text.digit? 16 low).map (d * 16 + ·)).filter (· < 256) := by
  by_cases hplus : high = '+'
  · subst hplus
    rw [Text.numeral?, show Text.unsigned ['+', low] = [low] from rfl, Text.number?,
      Text.digits?_singleton, lead?, if_pos rfl, Option.bind_some]
  · have hunsigned : Text.unsigned [high, low] = [high, low] := by
      unfold Text.unsigned
      split
      · next heq => exact absurd (List.cons.inj heq).1 hplus
      · rfl
    rw [Text.numeral?, hunsigned, Text.number?, lead?, if_neg hplus, Text.digits?]
    cases Text.digit? 16 high with
    | none => rfl
    | some d => simp only [Text.digits?_singleton, Nat.zero_mul, Nat.zero_add, Option.bind_some]

/-- The value of the first character of a pair is written as that character's digit. -/
theorem exists_lead? (h : IsDigit high ∨ high = '+') :
    ∃ d < 16, lead? high = some d ∧ Text.capitalDigit d = capital high := by
  rcases h with h | rfl
  · have hplus : high ≠ '+' := by
      rintro rfl
      exact absurd h (by decide)
    rw [lead?, if_neg hplus]
    exact h.exists_value
  · exact ⟨0, by decide, rfl, by decide⟩

/-- The byte of a pair is written with the digits of the pair. -/
theorem IsPair.exists_byte (h : IsPair high low) :
    ∃ byte : UInt8, Text.numeral? 16 256 [high, low] = some byte.toNat ∧
      Text.capitalHex 2 byte.toNat = [capital high, capital low] := by
  obtain ⟨d, hd, hlead, hhigh⟩ := exists_lead? h.1
  obtain ⟨e, he, hdigit, hlow⟩ := h.2.exists_value
  have hbyte : (UInt8.ofNat (d * 16 + e)).toNat = d * 16 + e := by
    rw [UInt8.toNat_ofNat', Nat.mod_eq_of_lt (by omega)]
  refine ⟨UInt8.ofNat (d * 16 + e), ?_, ?_⟩
  · rw [numeral?_pair, hlead, hdigit, hbyte]
    simp only [Option.bind_some, Option.map_some, Option.filter_some, decide_eq_true_eq]
    rw [if_pos (by omega)]
  · have hquotient : (d * 16 + e) / 16 % 16 = d := by omega
    have hremainder : (d * 16 + e) % 16 = e := by omega
    simp only [hbyte, Text.capitalHex, hquotient, hremainder, hhigh, hlow, List.nil_append,
      List.cons_append]

/-- Two characters that are no pair have no value. -/
theorem numeral?_of_not_isPair (h : ¬ IsPair high low) :
    Text.numeral? 16 256 [high, low] = none := by
  rw [numeral?_pair]
  by_cases hlow : IsDigit low
  · have hhigh : ¬ (IsDigit high ∨ high = '+') := fun hhigh => h ⟨hhigh, hlow⟩
    rw [not_or] at hhigh
    rw [lead?, if_neg hhigh.2, digit?_of_not_isDigit hhigh.1]
    rfl
  · rw [digit?_of_not_isDigit hlow]
    cases lead? high <;> rfl

/-! ## Texts of pairs -/

/-- An even number of characters, each of them a digit; in the first place of a pair
there may be a plus sign instead. -/
def IsPaired (text : List Char) : Prop :=
  text.length % 2 = 0 ∧ ∀ i c, text[i]? = some c → IsDigit c ∨ c = '+' ∧ i % 2 = 0

/-- A text is paired exactly if its first pair and the rest are. -/
theorem isPaired_cons_cons :
    IsPaired (high :: low :: text) ↔ IsPair high low ∧ IsPaired text := by
  simp only [IsPaired, IsPair, List.length_cons]
  constructor
  · rintro ⟨hlength, hall⟩
    refine ⟨⟨?_, ?_⟩, by omega, fun i c hc => ?_⟩
    · exact (hall 0 high rfl).imp_right And.left
    · exact (hall 1 low rfl).resolve_right fun hplus => absurd hplus.2 (by decide)
    · exact (hall (i + 2) c hc).imp_right (And.imp_right fun heven => by omega)
  · rintro ⟨⟨hhigh, hlow⟩, hlength, hall⟩
    refine ⟨by omega, fun i c hc => ?_⟩
    match i with
    | 0 =>
      obtain rfl : high = c := Option.some.inj hc
      exact hhigh.imp_right fun hplus => ⟨hplus, rfl⟩
    | 1 =>
      obtain rfl : low = c := Option.some.inj hc
      exact .inl hlow
    | i + 2 => exact (hall i c hc).imp_right (And.imp_right fun heven => by omega)

/-- Texts of pairs are read, and the bytes are written with the same digits. -/
theorem pairs?_of_isPaired (h : IsPaired text) :
    ∃ bytes, pairs? text = some bytes ∧ encode bytes = text.map capital := by
  induction text using List.twoStepInduction with
  | nil => exact ⟨[], rfl, rfl⟩
  | singleton c => exact absurd h.1 (by simp)
  | cons_cons high low rest ih =>
    obtain ⟨hpair, hrest⟩ := isPaired_cons_cons.mp h
    obtain ⟨byte, hbyte, hdigits⟩ := hpair.exists_byte
    obtain ⟨bytes, hbytes, hencode⟩ := ih hrest
    refine ⟨byte :: bytes, ?_, ?_⟩
    · rw [pairs?, hbyte, hbytes]
      simp only [UInt8.ofNat_toNat]
    · rw [encode, List.flatMap_cons, hdigits, ← encode, hencode]
      rfl

/-- No other text is read. -/
theorem pairs?_of_not_isPaired (h : ¬ IsPaired text) : pairs? text = none := by
  induction text using List.twoStepInduction with
  | nil => exact absurd ⟨rfl, fun i c hc => by simp at hc⟩ h
  | singleton c => rfl
  | cons_cons high low rest ih =>
    rw [isPaired_cons_cons, not_and] at h
    by_cases hpair : IsPair high low
    · rw [pairs?, ih (h hpair)]
      cases Text.numeral? 16 256 [high, low] <;> rfl
    · rw [pairs?, numeral?_of_not_isPair hpair]

/-- A text of pairs can be cut into them. -/
theorem IsPaired.canBePaired (h : IsPaired text) : CanBePaired text := by
  refine canBePaired_iff.mpr ⟨h.1, fun c hc => ?_⟩
  obtain ⟨i, hi⟩ := List.mem_iff_getElem?.mp hc
  rcases h.2 i c hi with hdigit | ⟨rfl, -⟩
  · exact hdigit.toNat_lt
  · decide

theorem decode?_of_isPaired (h : IsPaired text) : decode? text = pairs? text :=
  if_pos h.canBePaired

theorem decode?_of_not_isPaired (h : ¬ IsPaired text) : decode? text = none := by
  rw [decode?, pairs?_of_not_isPaired h, ite_self]

/-- Without a plus sign, a text of pairs is an even number of digits. -/
theorem isPaired_iff_of_not_plus (h : '+' ∉ text) :
    IsPaired text ↔ text.length % 2 = 0 ∧ ∀ c ∈ text, IsDigit c := by
  refine and_congr_right fun _ => ⟨fun hall c hc => ?_, fun hall i c hc => ?_⟩
  · obtain ⟨i, hi⟩ := List.mem_iff_getElem?.mp hc
    refine (hall i c hi).resolve_right fun hplus => h (hplus.1 ▸ hc)
  · exact .inl (hall c (List.mem_of_getElem? hc))

/-- Only a plus sign sets the capital letters apart from those that are written. -/
theorem map_capital_of_not_plus (h : '+' ∉ text) : text.map capital = text.map Char.toUpper := by
  refine List.map_congr_left fun c hc => ?_
  have hplus : c ≠ '+' := by
    rintro rfl
    exact h hc
  rw [capital, if_neg hplus]

/-- **Exactly the texts of pairs name bytes**, and the bytes are written with the digits
that they were read from, letters in capitals and a zero for a sign; every other text is
refused as it stands.  So a text without a plus sign names bytes exactly if it is an even
number of digits, and it is then written in capitals. -/
theorem reads_pairs_of_digits (text : String) :
    (IsPaired text.toList → ∃ bytes, ofText? text = .ok bytes ∧
      Hex.text bytes = String.ofList (text.toList.map capital)) ∧
    (¬ IsPaired text.toList → ofText? text = .error (.invalidHex text)) ∧
    ('+' ∉ text.toList →
      ((∃ bytes, ofText? text = .ok bytes) ↔
        text.length % 2 = 0 ∧ ∀ c ∈ text.toList, IsDigit c) ∧
      ∀ bytes, ofText? text = .ok bytes →
        Hex.text bytes = String.ofList (text.toList.map Char.toUpper)) := by
  have haccepts (h : IsPaired text.toList) : ∃ bytes, ofText? text = .ok bytes ∧
      Hex.text bytes = String.ofList (text.toList.map capital) := by
    obtain ⟨bytes, hread, hwritten⟩ := pairs?_of_isPaired h
    refine ⟨bytes, ?_, congrArg String.ofList hwritten⟩
    rw [ofText?, decode?_of_isPaired h, hread]
  have hrefuses (h : ¬ IsPaired text.toList) : ofText? text = .error (.invalidHex text) := by
    rw [ofText?, decode?_of_not_isPaired h]
  have hpaired {bytes : List UInt8} (h : ofText? text = .ok bytes) : IsPaired text.toList := by
    by_contra hnot
    rw [hrefuses hnot] at h
    cases h
  refine ⟨haccepts, hrefuses, fun hplus => ⟨?_, fun bytes hbytes => ?_⟩⟩
  · rw [← String.length_toList, ← isPaired_iff_of_not_plus hplus]
    exact ⟨fun ⟨_, h⟩ => hpaired h, fun h => (haccepts h).imp fun _ => And.left⟩
  · obtain ⟨read, hread, hwritten⟩ := haccepts (hpaired hbytes)
    obtain rfl : read = bytes := Except.ok.inj (hread.symm.trans hbytes)
    rw [hwritten, map_capital_of_not_plus hplus]

/-- A sign is read for a digit, although it is none. -/
theorem sign_passes_for_digit :
    ofText? "+F" = .ok [0x0F] ∧ Hex.text [0x0F] = "0F" ∧ "+F".length % 2 = 0 ∧
      ¬ ∀ c ∈ "+F".toList, IsDigit c := by
  refine ⟨by decide +kernel, by decide +kernel, by decide +kernel, fun hall => ?_⟩
  exact absurd (hall '+' (by decide +kernel)) (by decide)

end EventLog.Hex
