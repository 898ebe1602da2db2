import EventLog.Record.Binary
import EventLog.Proofs.Step

/-!
# EventLog.Proofs.Record.Binary

What the binary form of a record tells about it.

    system  02          | generator, direction | data, filled up to three bytes
    OEM     record type | data

* `systemBody_eq_iff`: the bytes behind the type of a system record give the
  generator, the direction and the data up to bytes `FF` at the end;
* `IsMade.encode?_eq`: every record that was made has a binary form (`bytesOf`);
* `bytesOf_eq_iff`: what two records have in common if their binary forms agree;
* `encodings_tell_records_apart`: a system record and an OEM record are told apart
  unless the OEM record has the type of system records and the data of their length.
-/

namespace EventLog

/-- Event data as a system record carries it, filled up to three bytes. -/
def filledUp (data : List UInt8) : List UInt8 :=
  data ++ List.replicate (systemDataLimit - data.length) unspecifiedByte

/-- The bytes of a system record behind its type. -/
def systemBody (data : List UInt8) (assert : Bool) (generator : UInt16) : List UInt8 :=
  generator.toUInt8 :: (generator >>> 8).toUInt8 :: (if assert then 0 else deassertBit)
    :: filledUp data

/-! ## The bytes of system records -/

/-- Data that was filled up has as many bytes as a system record takes. -/
theorem length_filledUp {data : List UInt8} (h : data.length ≤ systemDataLimit) :
    (filledUp data).length = systemDataLimit := by
  rw [filledUp, List.length_append, List.length_replicate]
  omega

/-- The low and the high byte give the number. -/
theorem eq_of_bytes_eq {a b : UInt16} (hlow : a.toUInt8 = b.toUInt8)
    (hhigh : (a >>> 8).toUInt8 = (b >>> 8).toUInt8) : a = b := by
  have hlow := congrArg UInt8.toNat hlow
  have hhigh := congrArg UInt8.toNat hhigh
  have ha := a.toNat_lt
  have hb := b.toNat_lt
  have hshift (x : UInt16) : (x >>> 8).toNat = x.toNat / 256 := by
    rw [UInt16.toNat_shiftRight]
    exact Nat.shiftRight_eq_div_pow x.toNat 8
  rw [UInt16.toNat_toUInt8, UInt16.toNat_toUInt8] at hlow hhigh
  rw [hshift, hshift] at hhigh
  exact UInt16.toNat_inj.mp (by omega)

/-- The bit of a direction tells the direction. -/
theorem direction_inj {a b : Bool}
    (h : (if a then 0 else deassertBit) = if b then 0 else deassertBit) : a = b := by
  revert a b
  decide

/-- The body of a system record tells generator, direction and data, up to the bytes filled in. -/
theorem systemBody_eq_iff {data data' : List UInt8} {assert assert' : Bool}
    {generator generator' : UInt16} :
    systemBody data assert generator = systemBody data' assert' generator' ↔
      generator = generator' ∧ assert = assert' ∧ filledUp data = filledUp data' := by
  constructor
  · intro h
    simp only [systemBody, List.cons.injEq] at h
    obtain ⟨hlow, hhigh, hdirection, hdata⟩ := h
    exact ⟨eq_of_bytes_eq hlow hhigh, direction_inj hdirection, hdata⟩
  · rintro ⟨rfl, rfl, hdata⟩
    rw [systemBody, systemBody, hdata]

namespace Record

/-! ## Records that were made -/

/-- The record was made in one of the two ways that check it. -/
inductive IsMade : Record → Prop where
  | system {message sensor : String} {data : List UInt8} {assert : Bool} {generator : UInt16}
      {record : Record} (h : system? message sensor data assert generator = .ok record) :
      IsMade record
  | oem {message : String} {data : List UInt8} {recordType : UInt8} {record : Record}
      (h : oem? message data recordType = .ok record) : IsMade record

/-- The bytes that stand for a record. -/
def bytesOf (record : Record) : List UInt8 :=
  match record.origin with
  | .system generator _ assert => systemRecordType :: systemBody record.data assert generator
  | .oem => record.recordType :: record.data

/-- The data is within the limit, and a system record has the type of system records. -/
def IsRegular (record : Record) : Prop :=
  match record.origin with
  | .system _ _ _ => record.recordType = systemRecordType ∧ record.data.length ≤ systemDataLimit
  | .oem => record.data.length ≤ oemDataLimit

theorem checkData_eq_ok_iff {limit : Nat} {data : List UInt8} :
    checkData limit data = .ok () ↔ data.length ≤ limit := by
  rw [checkData]
  split
  · next h => exact iff_of_true rfl h
  · next h => exact iff_of_false (fun hok => by cases hok) h

variable {r s : Record}

/-- A record that was made is regular. -/
theorem IsMade.isRegular (h : r.IsMade) : r.IsRegular := by
  cases h with
  | system h =>
    obtain ⟨_, hdata, h⟩ := Step.bind_eq_ok.mp h
    obtain ⟨_, -, h⟩ := Step.bind_eq_ok.mp h
    cases h
    exact ⟨rfl, checkData_eq_ok_iff.mp hdata⟩
  | oem h =>
    obtain ⟨_, hdata, h⟩ := Step.bind_eq_ok.mp h
    cases h
    exact checkData_eq_ok_iff.mp hdata

/-- A regular record is encoded, and to the bytes said. -/
theorem IsRegular.encode?_eq (h : r.IsRegular) : r.encode? = .ok r.bytesOf := by
  obtain ⟨recordType, message, data, origin, metadata⟩ := r
  cases origin with
  | system generator sensor assert =>
    have hdata := checkData_eq_ok_iff.mpr h.2
    simp only [encode?, encodeSystem?, hdata]
    rfl
  | oem =>
    have hdata := checkData_eq_ok_iff.mpr h
    simp only [encode?, encodeOem?, hdata]
    rfl

/-- An OEM record takes its data and a byte more, every other record seven bytes. -/
theorem IsRegular.length_bytesOf (h : r.IsRegular) :
    r.bytesOf.length = if r.origin = .oem then 1 + r.data.length else 7 := by
  obtain ⟨recordType, message, data, origin, metadata⟩ := r
  cases origin with
  | system generator sensor assert =>
    rw [if_neg (by simp), bytesOf]
    simp only [systemBody, List.length_cons, length_filledUp h.2]
    rfl
  | oem => rw [if_pos rfl, bytesOf, List.length_cons, Nat.add_comm]

/-! ## Records with the same bytes -/

/-- What two records have in common if they have the same bytes.  An OEM record passes for
a system record if it has the type of system records and the bytes behind that for data. -/
def PassesFor (r s : Record) : Prop :=
  match r.origin, s.origin with
  | .system generator _ assert, .system generator' _ assert' =>
    r.recordType = s.recordType ∧ generator = generator' ∧ assert = assert' ∧
      filledUp r.data = filledUp s.data
  | .oem, .oem => r.recordType = s.recordType ∧ r.data = s.data
  | .system generator _ assert, .oem =>
    s.recordType = systemRecordType ∧ s.data = systemBody r.data assert generator
  | .oem, .system generator _ assert =>
    r.recordType = systemRecordType ∧ r.data = systemBody s.data assert generator

/-- Two regular records have the same bytes exactly if one passes for the other. -/
theorem IsRegular.bytesOf_eq_iff (hr : r.IsRegular) (hs : s.IsRegular) :
    r.bytesOf = s.bytesOf ↔ r.PassesFor s := by
  obtain ⟨recordType, message, data, origin, metadata⟩ := r
  obtain ⟨recordType', message', data', origin', metadata'⟩ := s
  cases origin with
  | system generator sensor assert =>
    cases origin' with
    | system generator' sensor' assert' =>
      simp only [bytesOf, PassesFor, List.cons.injEq, true_and, systemBody_eq_iff]
      exact (and_iff_right (hr.1.trans hs.1.symm)).symm
    | oem =>
      simp only [bytesOf, PassesFor, List.cons.injEq]
      exact and_congr eq_comm eq_comm
  | oem =>
    cases origin' with
    | system generator' sensor' assert' => simp only [bytesOf, PassesFor, List.cons.injEq]
    | oem => simp only [bytesOf, PassesFor, List.cons.injEq]

/-- **What the binary form tells of a record.**  Every record that was made has one, of
seven bytes for a system record and of one more than its data for an OEM record.  Two
records with the same binary form are of one kind and have their type in common, with the
data of OEM records, or the generator, the direction and the filled-up data of system
records; or one of them is an OEM record with the type of system records and six bytes of
data, those that the system record has behind its type. -/
theorem encodings_tell_records_apart (hr : r.IsMade) (hs : s.IsMade) :
    (∃ bytes, r.encode? = .ok bytes ∧
      bytes.length = if r.origin = .oem then 1 + r.data.length else 7) ∧
    (∃ bytes, s.encode? = .ok bytes ∧
      bytes.length = if s.origin = .oem then 1 + s.data.length else 7) ∧
    (r.encode? = s.encode? ↔ r.PassesFor s) := by
  have hr := hr.isRegular
  have hs := hs.isRegular
  refine ⟨⟨r.bytesOf, hr.encode?_eq, hr.length_bytesOf⟩,
    ⟨s.bytesOf, hs.encode?_eq, hs.length_bytesOf⟩, ?_⟩
  rw [hr.encode?_eq, hs.encode?_eq, Except.ok.injEq, hr.bytesOf_eq_iff hs]

/-- Two system records whose data is filled up alike. -/
theorem encodings_tell_records_apart_of_filled_up :
    ∃ r s : Record, system? "short" "/x/Fan1" [1] true 0x1234 = .ok r ∧
      system? "long" "/x/Fan2" [1, 0xFF] true 0x1234 = .ok s ∧
      r.encode? = .ok [2, 0x34, 0x12, 0, 1, 0xFF, 0xFF] ∧ r.encode? = s.encode? ∧
      r.PassesFor s ∧ r.data ≠ s.data := by
  let r : Record := ⟨systemRecordType, "short", [1], .system 0x1234 "/x/Fan1" true, []⟩
  let s : Record := ⟨systemRecordType, "long", [1, 0xFF], .system 0x1234 "/x/Fan2" true, []⟩
  have hr : system? "short" "/x/Fan1" [1] true 0x1234 = .ok r := rfl
  have hs : system? "long" "/x/Fan2" [1, 0xFF] true 0x1234 = .ok s := rfl
  have hsame := (encodings_tell_records_apart (.system hr) (.system hs)).2.2
  exact ⟨r, s, hr, hs, rfl, rfl, hsame.mp rfl, by decide⟩

/-- An OEM record with the bytes of a system record. -/
theorem oem_passes_for_system :
    ∃ r s : Record, system? "" "/x/Fan1" [1] true 0x20 = .ok r ∧
      oem? "" [0x20, 0, 0, 1, 0xFF, 0xFF] 0x02 = .ok s ∧
      r.encode? = .ok [2, 0x20, 0, 0, 1, 0xFF, 0xFF] ∧ s.encode? = r.encode? ∧
      r.origin ≠ .oem ∧ s.origin = .oem :=
  ⟨_, _, rfl, rfl, rfl, rfl, by decide, rfl⟩

end Record

end EventLog
