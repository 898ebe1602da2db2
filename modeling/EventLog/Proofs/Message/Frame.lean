import EventLog.Message.Frame

/-!
# EventLog.Proofs.Message.Frame

The front of a stream that ends: a message, fewer bytes than a length takes, a
length above the limit, or a body that is cut short.

* `Front`: which of the four it is, what a reader answers, and what it leaves;
* `read_eq_iff`: a reader answers just that;
* `writeAll`, `readMany`: messages are written and read one after the other;
* `frames_read_back`: what was written is read back, and then the end is met.
-/

namespace EventLog.Frame

/-! ## Lengths -/

theorem sizeOfHeader_lt (a b c d : UInt8) : sizeOfHeader a b c d < 0x100000000 := by
  have ha := a.toNat_lt
  have hb := b.toNat_lt
  have hc := c.toNat_lt
  have hd := d.toNat_lt
  simp only [sizeOfHeader]
  omega

/-- Four bytes are the length that they stand for. -/
theorem header_sizeOfHeader (a b c d : UInt8) : header (sizeOfHeader a b c d) = [a, b, c, d] := by
  have ha := a.toNat_lt
  have hb := b.toNat_lt
  have hc := c.toNat_lt
  have hd := d.toNat_lt
  simp only [header, sizeOfHeader, List.cons.injEq, and_true, ← UInt8.toNat_inj,
    UInt8.toNat_ofNat']
  refine ⟨?_, ?_, ?_, ?_⟩ <;> omega

/-- A stream that is long enough begins with a length. -/
theorem exists_header {stream : List UInt8} (h : headerSize ≤ stream.length) :
    ∃ size rest, size < 0x100000000 ∧ stream = header size ++ rest := by
  match stream with
  | a :: b :: c :: d :: rest =>
    exact ⟨_, rest, sizeOfHeader_lt a b c d, by rw [header_sizeOfHeader]; rfl⟩
  | [] | [_] | [_, _] | [_, _, _] => simp [headerSize] at h

/-! ## Reading -/

/-- The front of a stream that ends, what is read of it, and what is left. -/
inductive Front : List UInt8 → Except MessageError (List UInt8) → List UInt8 → Prop
  | message {message rest : List UInt8} (h : message.length ≤ sizeLimit) :
    Front (header message.length ++ message ++ rest) (.ok message) rest
  | closed {stream : List UInt8} (h : stream.length < headerSize) :
    Front stream (.error .connectionClosed) []
  | tooLarge {size : Nat} {rest : List UInt8} (h : sizeLimit < size) (hsize : size < 0x100000000) :
    Front (header size ++ rest) (.error (.tooLarge size)) rest
  | cutShort {size : Nat} {body : List UInt8} (h : size ≤ sizeLimit) (hbody : body.length < size) :
    Front (header size ++ body) (.error (.io .earlyEnd)) []

variable {stream : List UInt8}

/-- A stream that ends within a header has no message. -/
theorem read_of_short (h : stream.length < headerSize) :
    read false stream = (.error .connectionClosed, []) := by
  match stream with
  | [] | [_] | [_, _] | [_, _, _] => rfl
  | _ :: _ :: _ :: _ :: _ =>
    simp only [headerSize, List.length_cons] at h
    omega

/-- What is read behind a length. -/
theorem read_header {size : Nat} (h : size < 0x100000000) (rest : List UInt8) :
    read false (header size ++ rest) =
      if sizeLimit < size then (.error (.tooLarge size), rest)
      else if rest.length < size then (.error (.io .earlyEnd), [])
      else (.ok (rest.take size), rest.drop size) := by
  obtain ⟨a, b, c, d, hheader, hsize⟩ := sizeOfHeader_header h
  simp only [hheader, List.cons_append, List.nil_append, read, hsize, List.length_take]
  grind

/-- **A reader answers what the front of the stream is.** -/
theorem read_eq_iff {result : Except MessageError (List UInt8)} {rest : List UInt8} :
    read false stream = (result, rest) ↔ Front stream result rest := by
  constructor
  · intro h
    by_cases hshort : stream.length < headerSize
    · rw [read_of_short hshort] at h
      cases h
      exact .closed hshort
    · obtain ⟨size, behind, hsize, rfl⟩ := exists_header (Nat.le_of_not_lt hshort)
      rw [read_header hsize] at h
      split at h
      · next hlarge =>
        cases h
        exact .tooLarge hlarge hsize
      · next hlarge =>
        split at h
        · next hcut =>
          cases h
          exact .cutShort (Nat.le_of_not_lt hlarge) hcut
        · next hcut =>
          cases h
          have hlength : (behind.take size).length = size :=
            List.length_take_of_le (Nat.le_of_not_lt hcut)
          have hfront := @Front.message (behind.take size) (behind.drop size)
            (Nat.le_trans (Nat.le_of_eq hlength) (Nat.le_of_not_lt hlarge))
          rwa [hlength, List.append_assoc, List.take_append_drop] at hfront
  · intro h
    cases h with
    | @message message rest h =>
      have hsize : message.length < 0x100000000 := by simp only [sizeLimit] at h; omega
      rw [List.append_assoc, read_header hsize, if_neg (Nat.not_lt.mpr h), if_neg (by simp)]
      simp
    | closed h => exact read_of_short h
    | tooLarge h hsize => rw [read_header hsize, if_pos h]
    | @cutShort size body h hbody =>
      have hsize : size < 0x100000000 := by simp only [sizeLimit] at h; omega
      rw [read_header hsize, if_neg (Nat.not_lt.mpr h), if_pos hbody]

/-! ## Streams of messages -/

/-- Writes messages behind what a stream has, up to the first that is refused. -/
def writeAll (stream : List UInt8) : List (List UInt8) → Except MessageError Unit × List UInt8
  | [] => (.ok (), stream)
  | message :: rest =>
    match write message with
    | .ok bytes => writeAll (stream ++ bytes) rest
    | .error e => (.error e, stream)

/-- Reads so many times from a stream that ends. -/
def readMany : Nat → List UInt8 → List (Except MessageError (List UInt8))
  | 0, _ => []
  | count + 1, stream => (read false stream).1 :: readMany count (read false stream).2

/-- A message in its frame. -/
def frame (message : List UInt8) : List UInt8 := header message.length ++ message

/-- A message within the limit is sent in its frame. -/
theorem write_of_le {message : List UInt8} (h : message.length ≤ sizeLimit) :
    write message = .ok (frame message) := if_neg (Nat.not_lt.mpr h)

/-- A message over the limit is refused. -/
theorem write_of_lt {message : List UInt8} (h : sizeLimit < message.length) :
    write message = .error (.tooLarge message.length) := if_pos h

/-- Messages within the limit are all sent, one behind the other. -/
theorem writeAll_of_le {messages : List (List UInt8)}
    (h : ∀ message ∈ messages, message.length ≤ sizeLimit) (stream : List UInt8) :
    writeAll stream messages = (.ok (), stream ++ messages.flatMap frame) := by
  induction messages generalizing stream with
  | nil => simp [writeAll]
  | cons message messages ih =>
    obtain ⟨hfirst, hrest⟩ := List.forall_mem_cons.mp h
    simp [writeAll, write_of_le hfirst, ih hrest]

/-- Frames are read one after the other, and then what stands behind them. -/
theorem readMany_flatMap_frame {messages : List (List UInt8)}
    (h : ∀ message ∈ messages, message.length ≤ sizeLimit) (count : Nat) (rest : List UInt8) :
    readMany (messages.length + count) (messages.flatMap frame ++ rest)
      = messages.map .ok ++ readMany count rest := by
  induction messages with
  | nil => simp
  | cons message messages ih =>
    obtain ⟨hfirst, hrest⟩ := List.forall_mem_cons.mp h
    have hread : read false (frame message ++ (messages.flatMap frame ++ rest))
        = (.ok message, messages.flatMap frame ++ rest) :=
      read_eq_iff.mpr (.message hfirst)
    rw [List.length_cons, Nat.add_right_comm, readMany, List.flatMap_cons, List.append_assoc, hread,
      ih hrest]
    rfl

/-- **Frames and nothing else are read.**  What is read of a stream that ends is
what stands at its front.  A message that is not too long is written in its frame,
and of another one nothing is written.  Messages that were written one after the
other are read back, each as it was, and then the end is met. -/
theorem frames_read_back :
    (∀ stream result rest, read false stream = (result, rest) ↔ Front stream result rest) ∧
    (∀ stream message, message.length ≤ sizeLimit →
      writeAll stream [message] = (.ok (), stream ++ (header message.length ++ message))) ∧
    (∀ stream message, sizeLimit < message.length →
      writeAll stream [message] = (.error (.tooLarge message.length), stream)) ∧
    ∀ messages, (∀ message ∈ messages, message.length ≤ sizeLimit) →
      ∃ stream, writeAll [] messages = (.ok (), stream) ∧
        readMany (messages.length + 1) stream = messages.map .ok ++ [.error .connectionClosed] := by
  refine ⟨fun _ _ _ => read_eq_iff, fun stream message h => ?_, fun stream message h => ?_,
    fun messages h => ⟨_, writeAll_of_le h [], ?_⟩⟩
  · rw [writeAll_of_le (by simpa using h)]
    simp [frame]
  · rw [writeAll, write_of_lt h]
  · have hread := readMany_flatMap_frame h 1 []
    rwa [List.append_nil] at hread

/-- A message of three bytes and an empty one. -/
theorem frames_read_back_of_two :
    let messages : List (List UInt8) := [[7, 8, 9], []]
    let stream : List UInt8 := [0, 0, 0, 3, 7, 8, 9, 0, 0, 0, 0]
    writeAll [] messages = (.ok (), stream) ∧
      readMany 3 stream = [.ok [7, 8, 9], .ok [], .error .connectionClosed] := by
  intro messages stream
  have hlength : ∀ message ∈ messages, message.length ≤ sizeLimit := by decide
  obtain ⟨written, hwrite, hread⟩ := frames_read_back.2.2.2 messages hlength
  have hstream : writeAll [] messages = (.ok (), stream) := rfl
  obtain rfl : stream = written := congrArg Prod.snd (hstream.symm.trans hwrite)
  exact ⟨hwrite, hread⟩

end EventLog.Frame
