import EventLog.Message.Codec
import EventLog.Proofs.Json.Reader

/-!
# EventLog.Proofs.Json.Shape

What readers of messages ask of a JSON value holds of the values that messages
are made of.

* `Fits.isSound`: such a value is sound;
* `natBelow?_nat`, `intWithin?_int`, `bytes?_bytes`, `items?_map`: numbers and lists
  are read back;
* `fields?_ofFields`: an object gives the values of its fields;
* `message?_message`: a message gives its name and its fields.
-/

namespace EventLog

/-! ## Numbers -/

namespace Text

/-- Digits behind an earlier value make it no smaller. -/
theorem le_of_digits?_eq_some {value n : Nat} {text : List Char}
    (h : digits? 10 value text = some n) : value ≤ n := by
  induction text generalizing value with
  | nil =>
    cases h
    exact Nat.le_refl _
  | cons c text ih =>
    rw [digits?] at h
    split at h
    · have := ih h
      omega
    · cases h

theorem digit?_eq_some {c : Char} {d : Nat} (h : digit? 10 c = some d) :
    c.toNat - '0'.toNat = d := by
  rw [digit?, Option.filter_eq_some_iff, decide_eq_true_eq, digitValue] at h
  obtain ⟨hvalue, hd⟩ := h
  split at hvalue
  · exact Option.some.inj hvalue
  · split at hvalue
    · have := Option.some.inj hvalue
      omega
    · split at hvalue
      · have := Option.some.inj hvalue
        omega
      · cases hvalue

end Text

namespace JsonNumber

/-- Digits whose value a word holds are taken in to the last. -/
theorem accumulate_eq {value n : Nat} {digits : List Char}
    (h : Text.digits? 10 value digits = some n) (hn : n < Text.wordLimit) :
    accumulate value digits = (n, []) := by
  induction digits generalizing value with
  | nil =>
    cases h
    rfl
  | cons c digits ih =>
    rw [Text.digits?] at h
    split at h
    · next d hd =>
      have hle := Text.le_of_digits?_eq_some h
      rw [accumulate, Text.digit?_eq_some hd]
      exact (if_pos (Nat.lt_of_le_of_lt hle hn)).trans (ih h)
    · cases h

/-- A number that fits a word is read back. -/
theorem toInt?_toDigits {n : Nat} (h : n < Text.wordLimit) :
    toInt? ⟨false, Nat.toDigits 10 n, [], []⟩ = some (n : Int) := by
  have hdigits := accumulate_eq (Text.digits?_toDigits (by omega) (by omega) n) h
  simp [toInt?, isPlain, hdigits]

/-- A negative number that fits a word with its sign is read back. -/
theorem toInt?_negSucc {n : Nat} (h : n < Text.signedLimit) :
    toInt? ⟨true, Nat.toDigits 10 (n + 1), [], []⟩ = some (.negSucc n) := by
  have hword : n + 1 < Text.wordLimit := Nat.lt_of_le_of_lt h (by decide)
  have hdigits := accumulate_eq (Text.digits?_toDigits (by omega) (by omega) (n + 1)) hword
  have hrange : n + 1 ≠ 0 ∧ n + 1 ≤ Text.signedLimit := ⟨Nat.succ_ne_zero n, h⟩
  simp [toInt?, isPlain, hdigits, hrange.2, Int.negSucc_eq]

end JsonNumber

namespace Json

/-- A number below the limit is read back. -/
theorem natBelow?_nat {limit n : Nat} (h : n < limit) (hlimit : limit ≤ Text.wordLimit) :
    (nat n).natBelow? limit = some n := by
  have hint := JsonNumber.toInt?_toDigits (Nat.lt_of_lt_of_le h hlimit)
  have hrange : (0 : Int) ≤ n ∧ (n : Int) ≤ (limit : Int) - 1 := by omega
  simp [natBelow?, intWithin?, nat, hint, Option.filter, hrange]

@[simp] theorem byte?_nat (b : UInt8) : (nat b.toNat).byte? = some b := by
  rw [byte?, natBelow?_nat b.toNat_lt (by decide)]
  simp

@[simp] theorem word?_nat (w : UInt16) : (nat w.toNat).word? = some w := by
  rw [word?, natBelow?_nat w.toNat_lt (by decide)]
  simp

theorem count?_nat {n : Nat} (h : n < Text.wordLimit) : (nat n).count? = some n :=
  natBelow?_nat h (Nat.le_refl _)

/-- A whole number that a signed word of sixty-four bits holds is read back. -/
theorem intWithin?_int {i : Int}
    (h : -Text.signedLimit ≤ i ∧ i ≤ (Text.signedLimit : Int) - 1) :
    (int i).intWithin? (-Text.signedLimit) (Text.signedLimit - 1) = some i := by
  have hint : ∃ number, int i = .number number ∧ number.toInt? = some i := by
    cases i with
    | ofNat n =>
      have hword : n < Text.wordLimit := by
        have := h.2
        simp only [Text.signedLimit, Text.wordLimit, Int.ofNat_eq_natCast] at this ⊢
        omega
      exact ⟨_, rfl, JsonNumber.toInt?_toDigits hword⟩
    | negSucc n => exact ⟨_, rfl, JsonNumber.toInt?_negSucc (by have := h.1; omega)⟩
  obtain ⟨number, hnumber, hread⟩ := hint
  rw [hnumber, intWithin?, hread, Option.filter, if_pos (by simpa using h)]

/-! ## Lists -/

/-- Items are read back if each of them is. -/
theorem mapM_map_eq_some {α β γ : Type} {encode : α → β} {decode : β → Option γ} {read : α → γ}
    {as : List α} (h : ∀ a ∈ as, decode (encode a) = some (read a)) :
    (as.map encode).mapM decode = some (as.map read) := by
  induction as with
  | nil => rfl
  | cons a as ih =>
    rw [List.map_cons, List.mapM_cons, h a (.head _), ih fun b hb => h b (.tail _ hb)]
    rfl

/-- A list whose items are read back is read back. -/
theorem items?_map {α : Type} {encode : α → Json} {decode : Json → Option α} {as : List α}
    (h : ∀ a ∈ as, decode (encode a) = some a) :
    (array (as.map encode)).items? decode = some as := by
  have hread : (as.map encode).mapM decode = some (as.map id) := mapM_map_eq_some h
  rw [items?, hread, List.map_id]

@[simp] theorem bytes?_bytes (bs : List UInt8) : (bytes bs).bytes? = some bs :=
  items?_map fun b _ => byte?_nat b

/-! ## Soundness -/

/-- Items are sound exactly if each of them is. -/
theorem areSound_iff {depth : Nat} {items : List Json} :
    areSound depth items = true ↔ ∀ item ∈ items, isSound depth item = true := by
  induction items with
  | nil => simp [areSound]
  | cons item items ih => simp [areSound, ih]

/-- Members are sound exactly if each of their values is. -/
theorem areSoundMembers_named {depth : Nat} {members : List (String × Json)} :
    areSoundMembers depth (members.map named) = true
      ↔ ∀ member ∈ members, isSound depth member.2 = true := by
  induction members with
  | nil => simp [areSoundMembers]
  | cons member members ih => simp [areSoundMembers, named, ih]

/-- What fits the brackets that may be opened is sound. -/
theorem Fits.isSound {depth : Nat} {j : Json} (h : Fits depth j) :
    Json.isSound depth j = true := by
  induction h with
  | null | bool | text => simp [Json.isSound, Json.text]
  | nat h => simp [Json.isSound, Json.nat, JsonNumber.isInRange, JsonNumber.toInt?_toDigits h]
  | negSucc h => simp [Json.isSound, Json.int, JsonNumber.isInRange, JsonNumber.toInt?_negSucc h]
  | array h ih => rw [Json.isSound]; exact areSound_iff.mpr ih
  | object h ih => rw [ofFields_eq, Json.isSound]; exact areSoundMembers_named.mpr ih

/-! ## Fields -/

/-- A field is found by its name, if no other has that name. -/
theorem member?_named {members : List (String × Json)} (h : (members.map (·.1)).Nodup)
    {member : String × Json} (hm : member ∈ members) :
    member? member.1 (members.map named) = some (some member.2) := by
  have hfilter : (members.map named).filter (·.1 == some member.1) = [named member] := by
    induction members with
    | nil => cases hm
    | cons other members ih =>
      obtain ⟨hother, hrest⟩ := List.nodup_cons.mp h
      rw [List.map_cons]
      rcases List.mem_cons.mp hm with rfl | hm
      · have hnone : (members.map named).filter (·.1 == some member.1) = [] := by
          rw [List.filter_eq_nil_iff]
          intro field hfield
          obtain ⟨m, hm, rfl⟩ := List.mem_map.mp hfield
          have hne : m.1 ≠ member.1 := fun hname =>
            hother (List.mem_map.mpr ⟨m, hm, hname⟩)
          simpa [named] using hne
        rw [List.filter_cons_of_pos (by simp [named]), hnone]
      · have hne : other.1 ≠ member.1 := fun hname =>
          hother (List.mem_map.mpr ⟨member, hm, hname.symm⟩)
        rw [List.filter_cons_of_neg (by simpa [named] using hne), ih hrest hm]
  rw [member?, hfilter]
  rfl

/-- **An object gives the values of its fields**, in their order. -/
theorem fields?_ofFields {members : List (String × Json)} (h : (members.map (·.1)).Nodup)
    (required : Nat) :
    (ofFields members).fields? (members.map (·.1)) required
      = some (members.map fun member => some member.2) := by
  have hnames : names? (members.map named) = some (members.map (·.1)) :=
    mapM_map_eq_some fun _ _ => rfl
  rw [ofFields_eq, fields?, hnames]
  exact mapM_map_eq_some fun member hm => member?_named h hm

theorem fields?_single (name : String) (value : Json) (required : Nat) :
    (ofFields [(name, value)]).fields? [name] required = some [some value] :=
  fields?_ofFields (by simp) required

/-- **A message gives its name and its fields.** -/
theorem message?_message {name : String} {fields : List (String × Json)}
    (h : ∀ field ∈ fields, field.1 ≠ "type") :
    (message name fields).message? = some (name, ofFields fields) := by
  have hfields : (fields.map named).filter (·.1 != some "type") = fields.map named := by
    rw [List.filter_eq_self]
    intro field hfield
    obtain ⟨m, hm, rfl⟩ := List.mem_map.mp hfield
    simpa [named] using h m hm
  have htype : (fields.map named).filter (·.1 == some "type") = [] := by
    rw [List.filter_eq_nil_iff]
    intro field hfield
    obtain ⟨m, hm, rfl⟩ := List.mem_map.mp hfield
    simpa [named] using h m hm
  rw [message, ofFields_eq, ofFields_eq, message?, member?, List.map_cons,
    List.filter_cons_of_pos (by rfl), htype, List.filter_cons_of_neg (by simp [named]), hfields]
  rfl

end Json

end EventLog
