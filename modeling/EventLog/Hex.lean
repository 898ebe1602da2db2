import EventLog.Record.Basic

/-!
# EventLog.Hex

Bytes as pairs of hexadecimal digits.  Written in capitals; read with letters
in either case.  A pair is a numeral below 256, so a plus sign may stand for
its first digit.  A text whose size in bytes is odd, or with a character that is
not ASCII, is refused before it is cut into pairs.

* `decode?_encode`: written bytes are read back.
-/

namespace EventLog.Hex

/-- Two capital digits for each byte. -/
def encode (bytes : List UInt8) : List Char :=
  bytes.flatMap fun byte => Text.capitalHex 2 byte.toNat

/-- The bytes that pairs of characters name. -/
def pairs? : List Char → Option (List UInt8)
  | [] => some []
  | [_] => none
  | high :: low :: rest =>
    match Text.numeral? 16 256 [high, low], pairs? rest with
    | some byte, some bytes => some (UInt8.ofNat byte :: bytes)
    | _, _ => none

/-- An even number of bytes, all of them ASCII: no pair of bytes cuts a character apart. -/
def CanBePaired (text : List Char) : Prop :=
  (String.ofList text).utf8ByteSize % 2 = 0 ∧ ∀ c ∈ text, c.toNat < 128

instance (text : List Char) : Decidable (CanBePaired text) :=
  @instDecidableAnd _ _ _ (List.decidableBAll (·.toNat < 128) text)

/-- The bytes that a text of pairs names. -/
def decode? (text : List Char) : Option (List UInt8) :=
  if CanBePaired text then pairs? text else none

def text (bytes : List UInt8) : String := String.ofList (encode bytes)

/-- The bytes that a text names; a text that names none is refused. -/
def ofText? (text : String) : Except RecordError (List UInt8) :=
  match decode? text.toList with
  | some bytes => .ok bytes
  | none => .error (.invalidHex text)

/-- The two digits of a byte are read back. -/
theorem numeral?_capitalHex (byte : UInt8) :
    Text.numeral? 16 256 (Text.capitalHex 2 byte.toNat) = some byte.toNat := by
  have h : byte.toNat < 256 := byte.toNat_lt
  have hd := @Text.digits?_capitalHex 2 byte.toNat (by omega)
  have hu : ∀ n : Fin 16, Text.capitalDigit n.val ≠ '+' := by decide
  have h1 := hu ⟨byte.toNat / 16 % 16, Nat.mod_lt _ (by omega)⟩
  simp only [Text.capitalHex, List.nil_append, List.cons_append] at hd ⊢
  have : Text.unsigned [Text.capitalDigit (byte.toNat / 16 % 16), Text.capitalDigit (byte.toNat % 16)]
      = [Text.capitalDigit (byte.toNat / 16 % 16), Text.capitalDigit (byte.toNat % 16)] := by
    unfold Text.unsigned
    split
    · next heq => exact absurd (List.cons.inj heq).1 h1
    · rfl
  rw [Text.numeral?, this, Text.number?, hd]
  simp [h]

/-- The size of ASCII characters in bytes is their number. -/
theorem utf8ByteSize_ofList {text : List Char} (h : ∀ c ∈ text, c.toNat < 128) :
    (String.ofList text).utf8ByteSize = text.length := by
  induction text with
  | nil => rfl
  | cons c text ih =>
    obtain ⟨hc, htext⟩ := List.forall_mem_cons.mp h
    have hone : c.utf8Size = 1 := Char.utf8Size_eq_one_iff.mpr (Nat.le_of_lt_succ hc)
    rw [← List.singleton_append, String.ofList_append, String.utf8ByteSize_append,
      ← String.singleton_eq_ofList, String.utf8ByteSize_singleton, hone, ih htext,
      List.length_append, List.length_singleton]

/-- Pairs can be cut off exactly if the text has an even number of characters, all of them ASCII. -/
theorem canBePaired_iff {text : List Char} :
    CanBePaired text ↔ text.length % 2 = 0 ∧ ∀ c ∈ text, c.toNat < 128 :=
  ⟨fun ⟨hsize, hascii⟩ => ⟨utf8ByteSize_ofList hascii ▸ hsize, hascii⟩,
    fun ⟨hlength, hascii⟩ => ⟨(utf8ByteSize_ofList hascii).symm ▸ hlength, hascii⟩⟩

theorem canBePaired_encode (bytes : List UInt8) : CanBePaired (encode bytes) := by
  rw [canBePaired_iff]
  induction bytes with
  | nil => exact ⟨rfl, fun c hc => absurd hc List.not_mem_nil⟩
  | cons byte bytes ih =>
    have hdigit : ∀ d : Fin 16, (Text.capitalDigit d.val).toNat < 128 := by decide
    have hhigh := hdigit ⟨byte.toNat / 16 % 16, Nat.mod_lt _ (by omega)⟩
    have hlow := hdigit ⟨byte.toNat % 16, Nat.mod_lt _ (by omega)⟩
    have hencode : encode (byte :: bytes) = Text.capitalDigit (byte.toNat / 16 % 16)
        :: Text.capitalDigit (byte.toNat % 16) :: encode bytes := rfl
    rw [hencode]
    refine ⟨?_, List.forall_mem_cons.mpr ⟨hhigh, List.forall_mem_cons.mpr ⟨hlow, ih.2⟩⟩⟩
    rw [List.length_cons, List.length_cons]
    omega

/-- The pairs of bytes are read back. -/
theorem pairs?_encode (bytes : List UInt8) : pairs? (encode bytes) = some bytes := by
  induction bytes with
  | nil => rfl
  | cons byte bytes ih =>
    have h := numeral?_capitalHex byte
    simp only [encode, List.flatMap_cons, Text.capitalHex, List.nil_append, List.cons_append]
      at h ih ⊢
    simp only [pairs?, h, ih]
    simp

/-- Written bytes are read back. -/
theorem decode?_encode (bytes : List UInt8) : decode? (encode bytes) = some bytes := by
  rw [decode?, if_pos (canBePaired_encode bytes), pairs?_encode]

end EventLog.Hex
