import EventLog.Proofs.Message.Codec

/-!
# EventLog.Proofs.Message.Size

How long messages are.

* `length_toBytes_bounds`: a message has as many bytes as characters at least,
  and four times as many at most;
* `Within`: bounds for the values that messages are made of;
* `Response.IsBrief.exists_write`: a response with short lists and texts is never
  too long to be sent.
-/

namespace EventLog

/-! ## Bytes and characters -/

/-- A text has at most four bytes for each of its characters, and at least one. -/
theorem Text.utf8ByteSize_ofList_bounds (text : List Char) :
    text.length ≤ (String.ofList text).utf8ByteSize ∧
      (String.ofList text).utf8ByteSize ≤ 4 * text.length := by
  induction text with
  | nil => exact ⟨Nat.le_refl _, Nat.le_refl _⟩
  | cons c text ih =>
    have hsize : (String.ofList (c :: text)).utf8ByteSize
        = c.utf8Size + (String.ofList text).utf8ByteSize := by
      rw [← List.singleton_append, String.ofList_append, String.utf8ByteSize_append,
        ← String.singleton_eq_ofList, String.utf8ByteSize_singleton]
    have hpos := c.utf8Size_pos
    have hfour := c.utf8Size_le_four
    rw [hsize, List.length_cons]
    omega

/-- A character has one byte at least, and four at most. -/
theorem Message.length_toBytes_bounds (json : Json) :
    (Json.compactChars json).length ≤ (Message.toBytes json).length ∧
      (Message.toBytes json).length ≤ 4 * (Json.compactChars json).length := by
  have hsize : (Message.toBytes json).length = json.compact.utf8ByteSize := rfl
  rw [hsize]
  exact Text.utf8ByteSize_ofList_bounds _

theorem Frame.exists_write {message : List UInt8} (h : message.length ≤ sizeLimit) :
    ∃ written, write message = .ok written :=
  ⟨_, if_neg (Nat.not_lt.mpr h)⟩

/-- A message over the limit is not written. -/
theorem Frame.exists_refusal {message : List UInt8} (h : sizeLimit < message.length) :
    ∃ e, write message = .error e :=
  ⟨_, if_pos h⟩

namespace Json

/-! ## Values -/

/-- A character takes at most six characters in a string. -/
theorem length_escapedChar_le (c : Char) : (escapedChar c).length ≤ 6 := by
  unfold escapedChar
  split <;> (try split) <;> (try split) <;> (try split) <;> (try split) <;> (try split) <;>
    (try split) <;> (try split) <;> simp

/-- A string takes at most six characters for each of its own, and its quotes. -/
theorem length_stringText_le (s : String) : (stringText s).length ≤ 6 * s.toList.length + 2 := by
  have hflat (text : List Char) : (text.flatMap escapedChar).length ≤ 6 * text.length := by
    induction text with
    | nil => exact Nat.le_refl _
    | cons c text ih =>
      have := length_escapedChar_le c
      rw [List.flatMap_cons, List.length_append, List.length_cons]
      omega
  have := hflat s.toList
  simp only [stringText, List.length_append, List.length_cons, List.length_nil]
  omega

/-- A value that has no more characters than that. -/
def Within (most : Nat) (j : Json) : Prop := (compactChars j).length ≤ most

namespace Within

variable {most more : Nat}

theorem mono {j : Json} (h : Within most j) (hm : most ≤ more) : Within more j :=
  Nat.le_trans h hm

/-- A number that fits a word has at most twenty digits. -/
theorem nat {n : Nat} (h : n < Text.wordLimit) : Within 20 (.nat n) := by
  rw [Within, compactChars_nat, Nat.length_toDigits_le_iff (by omega) (by omega)]
  exact Nat.lt_trans h (by decide)

theorem text {s : String} (h : s.toList.length ≤ most) : Within (6 * most + 2) (.text s) := by
  have := length_stringText_le s
  rw [Within, Json.text, compactChars, stringText?]
  omega

theorem option {α : Type} {encode : α → Json} {value : Option α} (hnull : 4 ≤ most)
    (h : ∀ a ∈ value, Within most (encode a)) : Within most (.option encode value) := by
  cases value with
  | none => exact hnull
  | some a => exact h a rfl

/-- An array is bounded by its items. -/
theorem array {items : List Json} (h : ∀ item ∈ items, Within most item) :
    Within ((most + 1) * items.length + 2) (.array items) := by
  have hitems : (compactItems items).length ≤ (most + 1) * items.length := by
    induction items with
    | nil => exact Nat.le_refl _
    | cons item others ih =>
      have hitem : (compactChars item).length ≤ most := h item (.head _)
      have hothers := ih fun j hj => h j (.tail _ hj)
      rw [List.length_cons, Nat.mul_succ]
      cases others with
      | nil =>
        rw [compactItems]
        omega
      | cons other more =>
        rw [compactItems, List.length_append, List.length_cons]
        omega
  simp only [Within, compactChars, List.length_append, List.length_cons, List.length_nil]
  omega

/-- An object is bounded by its values, if its names are short. -/
theorem fields {members : List (String × Json)} {bounds : List Nat}
    (hnames : ∀ name ∈ members.map (·.1), name.toList.length ≤ 16)
    (h : List.Forall₂ (fun member most => Within most member.2) members bounds) :
    Within ((bounds.map (· + 100)).sum + 2) (.ofFields members) := by
  have hmembers : (compactMembers (members.map named)).length ≤ (bounds.map (· + 100)).sum := by
    induction h with
    | nil => exact Nat.le_refl _
    | @cons member most others rest hvalue hrest ih =>
      have htext := length_stringText_le member.1
      have hname : member.1.toList.length ≤ 16 := hnames _ (.head _)
      have hchars : (compactChars member.2).length ≤ most := hvalue
      have hothers := ih fun name hn => hnames name (.tail _ hn)
      rw [List.map_cons (f := (· + 100)), List.sum_cons]
      cases others with
      | nil =>
        simp only [List.map_cons, List.map_nil, named, compactMembers, stringText?,
          List.length_append, List.length_cons]
        omega
      | cons other more =>
        simp only [List.map_cons, named, compactMembers, stringText?, List.length_append,
          List.length_cons] at hothers ⊢
        omega
  simp only [Within, ofFields_eq, compactChars, List.length_append, List.length_cons,
    List.length_nil]
  omega

/-- A message is bounded like an object, with its name as one value more. -/
theorem message {name : String} {members : List (String × Json)} {bounds : List Nat}
    (hname : name.toList.length ≤ 16) (hnames : ∀ name ∈ members.map (·.1), name.toList.length ≤ 16)
    (h : List.Forall₂ (fun member most => Within most member.2) members bounds) :
    Within ((bounds.map (· + 100)).sum + 200) (.message name members) := by
  have hfields : Within _ (ofFields (("type", .text name) :: members)) :=
    fields (List.forall_mem_cons.mpr ⟨by simp, hnames⟩) (.cons (text hname) h)
  refine hfields.mono ?_
  rw [List.map_cons, List.sum_cons]
  omega

end Within

end Json

/-! ## Responses -/

/-- A response whose lists and texts are short. -/
def Response.IsBrief : Response → Prop
  | .hello version => version.toList.length ≤ 16
  | .published _ records => records.length ≤ 1
  | .status s => s.sink.toList.length ≤ 16 ∧ s.monitors.length ≤ 5 ∧
      ∀ name ∈ s.monitors, name.toList.length ≤ 16
  | .entries _ | .refused _ _ => False
  | _ => True

/-- Particulars of a log are short. -/
theorem StoreInfo.Fits.within {i : StoreInfo} (h : i.Fits) : Json.Within 1000 i.toJson := by
  have htime {time : Option Timestamp} (h : ∀ t ∈ time, t.InRange) :
      Json.Within 242 (.option Timestamp.toJson time) :=
    .option (by omega) fun t ht => .text (Timestamp.length_messageText_le (h t ht))
  exact (Json.Within.fields (by simp) (.cons (.nat h.entries_lt)
    (.cons (htime h.lastAdd_inRange) (.cons (htime h.lastErase_inRange) .nil)))).mono (by simp)

/-- A brief response is short. -/
theorem Response.IsBrief.within {r : Response} (hb : r.IsBrief) (h : r.Fits) :
    Json.Within 2000 r.toJson := by
  have hid (id : RecordId) : Json.Within 20 id.toJson :=
    .nat (Nat.lt_trans id.toNat_lt (by decide))
  cases r with
  | pong | ok | shuttingDown => exact (Json.Within.message (by simp) (by simp) .nil).mono (by simp)
  | hello version =>
    exact (Json.Within.message (by simp) (by simp) (.cons (.text hb) .nil)).mono (by simp)
  | recordId id =>
    exact (Json.Within.message (by simp) (by simp) (.cons (hid id) .nil)).mono (by simp)
  | info i =>
    exact (Json.Within.message (by simp) (by simp)
      (.cons (StoreInfo.Fits.within h) .nil)).mono (by simp)
  | published delivered ids =>
    have hone : ids.length ≤ 1 := hb
    have hids : Json.Within ((20 + 1) * (ids.map RecordId.toJson).length + 2) _ :=
      .array (List.forall_mem_map.mpr fun id _ => hid id)
    rw [List.length_map] at hids
    refine (Json.Within.message (by simp) (by simp) (.cons (.nat h) (.cons hids .nil))).mono ?_
    simp only [List.map_cons, List.map_nil, List.sum_cons, List.sum_nil]
    omega
  | status s =>
    obtain ⟨hsink, hfive, hnames⟩ := hb
    have hmonitors : Json.Within ((98 + 1) * (s.monitors.map Json.text).length + 2) _ :=
      .array (List.forall_mem_map.mpr fun name hn => .text (hnames name hn))
    rw [List.length_map] at hmonitors
    refine (Json.Within.message (by simp) (by simp)
      (.cons (.nat h.1) (.cons (.text hsink) (.cons hmonitors (.cons (.nat h.2) .nil))))).mono ?_
    simp only [List.map_cons, List.map_nil, List.sum_cons, List.sum_nil]
    omega
  | entries es => exact hb.elim
  | refused kind message => exact hb.elim

/-- **A response with short lists and texts is never too long to be sent.** -/
theorem Response.IsBrief.length_le {r : Response} (hb : r.IsBrief) (h : r.Fits) :
    (Message.toBytes r.toJson).length ≤ Frame.sizeLimit := by
  have hbytes := (Message.length_toBytes_bounds r.toJson).2
  have hwithin : (Json.compactChars r.toJson).length ≤ 2000 := hb.within h
  simp only [Frame.sizeLimit]
  omega

end EventLog
