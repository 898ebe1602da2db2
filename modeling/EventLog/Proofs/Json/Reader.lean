import EventLog.Json.Printer
import EventLog.Json.Reader
import EventLog.Proofs.Text

/-!
# EventLog.Proofs.Json.Reader

JSON that is written without blanks is read back.

* `takeNumber?_toDigits`: a whole number is read back, up to what follows it;
* `takeString?_append`: so is a string, whatever characters it has;
* `Fits`: the values that messages are made of, within a number of open brackets;
* `Fits.readsBack`: they are read back, and what follows them is left;
* `ofText?_compactChars`: the whole text is the value.
-/

namespace EventLog.Json

/-! ## Numbers -/

/-- A text that does not go on with a number. -/
def EndsNumber (rest : List Char) : Prop :=
  ∀ c ∈ rest.head?, c.isDigit = false ∧ c ≠ '.' ∧ c ≠ 'e' ∧ c ≠ 'E'

theorem endsNumber_nil : EndsNumber [] := fun _ h => by cases h

/-- Digits are read up to where the number ends. -/
theorem takeDigits_append {digits rest : List Char} (hd : ∀ c ∈ digits, c.isDigit = true)
    (hr : EndsNumber rest) : takeDigits (digits ++ rest) = (digits, rest) := by
  have hrest : rest.takeWhile (·.isDigit) = [] ∧ rest.dropWhile (·.isDigit) = rest := by
    cases rest with
    | nil => exact ⟨rfl, rfl⟩
    | cons c rest => simp [(hr c rfl).1]
  rw [takeDigits, List.takeWhile_append_of_pos hd, List.dropWhile_append_of_pos hd, hrest.1,
    hrest.2, List.append_nil]

/-- A number has no zero before other digits. -/
theorem eq_nil_of_toDigits_eq_zero_cons {n : Nat} {rest : List Char}
    (h : Nat.toDigits 10 n = '0' :: rest) : rest = [] := by
  induction n using Nat.strongRecOn generalizing rest with
  | ind n ih =>
    rw [Nat.toDigits_eq_if (by omega)] at h
    split at h
    · exact ((List.cons.inj h).2).symm
    · next hn =>
      obtain ⟨first, more, hfront⟩ := List.exists_cons_of_ne_nil
        (Text.toDigits_ne_nil (by omega : 1 < 10) (n / 10))
      rw [hfront, List.cons_append, List.cons.injEq] at h
      obtain ⟨rfl, rfl⟩ := h
      obtain rfl := ih _ (by omega) hfront
      -- The digits in front are a single zero, but the number in front is none.
      have hvalue := Text.digits?_toDigits (by omega : 1 < 10) (by omega) (n / 10)
      have hzero : Text.digits? 10 0 ['0'] = some 0 := by decide
      rw [hfront, hzero, Option.some.injEq] at hvalue
      omega

/-- The digits of a number are read as its whole part. -/
theorem takeWhole?_toDigits (n : Nat) {rest : List Char} (hr : EndsNumber rest) :
    takeWhole? (Nat.toDigits 10 n ++ rest) = some (Nat.toDigits 10 n, rest) := by
  have hdigits : ∀ c ∈ Nat.toDigits 10 n, c.isDigit = true :=
    fun _ hc => Nat.isDigit_of_mem_toDigits (by omega) (by omega) hc
  rw [takeWhole?, takeDigits_append hdigits hr]
  split
  · next h =>
    exact absurd (congrArg Prod.fst h) (Text.toDigits_ne_nil (by omega) n)
  · next h =>
    have := eq_nil_of_toDigits_eq_zero_cons (congrArg Prod.fst h)
    cases this
  · next h => rw [← h]

/-- A number that is not negative is read back with its sign. -/
theorem takeUnsigned?_toDigits (negative : Bool) (n : Nat) {rest : List Char}
    (hr : EndsNumber rest) : takeUnsigned? negative (Nat.toDigits 10 n ++ rest)
      = some (⟨negative, Nat.toDigits 10 n, [], []⟩, rest) := by
  have hfraction : takeFraction? rest = some ([], rest) := by
    rw [takeFraction?.eq_def]
    split
    · exact absurd rfl (hr '.' rfl).2.1
    · rfl
  have hexponent : takeExponent? rest = some ([], rest) := by
    rw [takeExponent?.eq_def]
    split
    · exact absurd rfl (hr 'e' rfl).2.2.1
    · exact absurd rfl (hr 'E' rfl).2.2.2
    · rfl
  rw [takeUnsigned?, takeWhole?_toDigits n hr]
  simp [hfraction, hexponent]

theorem takeNumber?_toDigits (n : Nat) {rest : List Char} (hr : EndsNumber rest) :
    takeNumber? (Nat.toDigits 10 n ++ rest) = some (⟨false, Nat.toDigits 10 n, [], []⟩, rest) := by
  rw [takeNumber?.eq_def]
  split
  · next text h =>
    obtain ⟨first, more, hfront⟩ := List.exists_cons_of_ne_nil
      (Text.toDigits_ne_nil (by omega : 1 < 10) n)
    have hdigit : first.isDigit = true :=
      Nat.isDigit_of_mem_toDigits (by omega) (by omega) (hfront ▸ List.mem_cons_self)
    rw [hfront, List.cons_append, List.cons.injEq] at h
    rw [h.1] at hdigit
    cases hdigit
  · exact takeUnsigned?_toDigits false n hr

/-! ## Strings -/

/-- A character as it is read: one that is named by its number is a code unit. -/
def pieceOf (c : Char) : Piece :=
  if c.toNat < 0x20 ∧ c.toNat ∉ [8, 9, 10, 12, 13] then .unit c.toNat else .char c

/-- A plain character of a string is read as it is. -/
theorem takePieces?_plain {c : Char} (hquote : c ≠ '"') (hslash : c ≠ '\\')
    (hctl : ¬ c.toNat < 0x20) (text : List Char) :
    takePieces? (c :: text) = (takePieces? text).map fun (ps, rest) => (.char c :: ps, rest) := by
  rw [takePieces?.eq_def]
  split
  · next h => cases h
  · next h => exact absurd (List.cons.inj h).1 hquote
  · next h => exact absurd (List.cons.inj h).1 hslash
  · next h => exact absurd (List.cons.inj h).1 hslash
  · next h =>
    obtain ⟨rfl, rfl⟩ := List.cons.inj h
    rw [if_neg (by simp [hctl, hslash])]

/-- A character that is named by its number is read as a code unit. -/
theorem takePieces?_numbered {n : Nat} (h : n < 0x20) (text : List Char) :
    takePieces? (['\\', 'u', '0', '0', Nat.digitChar (n / 16), Nat.digitChar (n % 16)] ++ text)
      = (takePieces? text).map fun (ps, rest) => (.unit n :: ps, rest) := by
  have hunit : codeUnit? '0' '0' (Nat.digitChar (n / 16)) (Nat.digitChar (n % 16)) = some n := by
    have hall : ∀ n : Fin 32, codeUnit? '0' '0' (Nat.digitChar (n / 16)) (Nat.digitChar (n % 16))
        = some n.val := by decide
    exact hall ⟨n, h⟩
  simp only [List.cons_append, List.nil_append, takePieces?, hunit]

/-- A character that was escaped is read back as one piece. -/
theorem takePieces?_escapedChar (c : Char) (text : List Char) :
    takePieces? (escapedChar c ++ text)
      = (takePieces? text).map fun (ps, rest) => (pieceOf c :: ps, rest) := by
  have hchar {n : Nat} (h : c.toNat = n) : c = Char.ofNat n := by rw [← h, Char.ofNat_toNat]
  unfold escapedChar
  split
  · next h => subst h; rfl
  split
  · next h => subst h; rfl
  split
  · next h => rw [hchar h]; rfl
  split
  · next h => subst h; rfl
  split
  · next h => subst h; rfl
  split
  · next h => rw [hchar h]; rfl
  split
  · next h => subst h; rfl
  · next hquote hslash h8 h9 h10 h12 h13 =>
    have hne {n : Nat} (h : c ≠ Char.ofNat n) : c.toNat ≠ n := fun hn => h (hchar hn)
    split
    · next hctl =>
      have hnamed : c.toNat ∉ [8, 9, 10, 12, 13] := by
        simp only [List.mem_cons, List.not_mem_nil, or_false, not_or]
        exact ⟨h8, hne h9, hne h10, h12, hne h13⟩
      rw [takePieces?_numbered hctl, pieceOf, if_pos ⟨hctl, hnamed⟩]
    · next hctl =>
      rw [List.singleton_append, takePieces?_plain hquote hslash hctl, pieceOf,
        if_neg fun h => hctl h.1]

/-- The pieces of a string that was written are those of its characters. -/
theorem takePieces?_flatMap (text rest : List Char) :
    takePieces? (text.flatMap escapedChar ++ '"' :: rest) = some (text.map pieceOf, rest) := by
  induction text with
  | nil => rfl
  | cons c text ih =>
    rw [List.flatMap_cons, List.append_assoc, takePieces?_escapedChar, ih]
    rfl

/-- No control is half of a surrogate pair. -/
theorem joinPieces?_unit {n : Nat} (h : n < 0x20) (pieces : List Piece) :
    joinPieces? (.unit n :: pieces) = (joinPieces? pieces).map (Char.ofNat n :: ·) := by
  have hhigh : isHighSurrogate n = false := by simp [isHighSurrogate]; omega
  have hlow : isLowSurrogate n = false := by simp [isLowSurrogate]; omega
  match pieces with
  | [] => simp [joinPieces?, hhigh, hlow]
  | .char c :: rest => simp [joinPieces?, hhigh, hlow]
  | .unit m :: rest => simp [joinPieces?, hhigh, hlow]

/-- The pieces of a text are put together to the text. -/
theorem joinPieces?_map_pieceOf (text : List Char) :
    joinPieces? (text.map pieceOf) = some text := by
  induction text with
  | nil => rfl
  | cons c text ih =>
    rw [List.map_cons, pieceOf]
    split
    · next h => rw [joinPieces?_unit h.1, ih, Char.ofNat_toNat]; rfl
    · rw [joinPieces?, ih]; rfl

/-- **A string is read back**, whatever characters it has. -/
theorem takeString?_append (s : String) (rest : List Char) :
    takeString? (s.toList.flatMap escapedChar ++ '"' :: rest) = some (some s, rest) := by
  rw [takeString?, takePieces?_flatMap]
  simp only [Option.map_some, joinPieces?_map_pieceOf, String.ofList_toList]

/-! ## Values -/

/-- The values that messages are made of, within so many open brackets: whole
numbers that a word of sixty-four bits holds, signed or not, strings and names
with a text. -/
inductive Fits : Nat → Json → Prop where
  | null {depth : Nat} : Fits depth .null
  | bool {depth : Nat} (b : Bool) : Fits depth (.bool b)
  | nat {depth n : Nat} (h : n < Text.wordLimit) : Fits depth (.nat n)
  | negSucc {depth n : Nat} (h : n < Text.signedLimit) : Fits depth (.int (.negSucc n))
  | text {depth : Nat} (s : String) : Fits depth (.text s)
  | array {depth : Nat} {items : List Json} (h : ∀ item ∈ items, Fits depth item) :
      Fits (depth + 1) (.array items)
  | object {depth : Nat} {members : List (String × Json)}
      (h : ∀ member ∈ members, Fits depth member.2) : Fits (depth + 1) (.ofFields members)

/-- A character that may stand behind a value, and is no part of it. -/
def isMark (c : Char) : Bool := c = ',' || c = ']' || c = '\x7d'

/-- A number ends at a mark. -/
theorem endsNumber_of_isMark {c : Char} (h : isMark c = true) (rest : List Char) :
    EndsNumber (c :: rest) := by
  rintro _ ⟨⟩
  simp only [isMark, Bool.or_eq_true, decide_eq_true_eq] at h
  rcases h with (rfl | rfl) | rfl <;> decide

/-- No blanks stand in front of a mark. -/
theorem skipSpace_of_isMark {c : Char} (h : isMark c = true) (rest : List Char) :
    skipSpace (c :: rest) = c :: rest := by
  simp only [isMark, Bool.or_eq_true, decide_eq_true_eq] at h
  rcases h with (rfl | rfl) | rfl <;> rfl

@[simp] theorem compactChars_nat (n : Nat) : compactChars (.nat n) = Nat.toDigits 10 n := by
  simp [nat, compactChars, numberText]

@[simp] theorem compactChars_negSucc (n : Nat) :
    compactChars (.int (.negSucc n)) = '-' :: Nat.toDigits 10 (n + 1) := by
  simp [int, compactChars, numberText]

/-- A value begins with a character that is neither a blank nor a mark. -/
theorem Fits.exists_cons {depth : Nat} {j : Json} (h : Fits depth j) :
    ∃ c more, compactChars j = c :: more ∧ isSpace c = false ∧ isMark c = false := by
  cases h with
  | null => exact ⟨_, _, rfl, rfl, rfl⟩
  | bool b => cases b <;> exact ⟨_, _, rfl, rfl, rfl⟩
  | text s => exact ⟨_, _, rfl, rfl, rfl⟩
  | array h => exact ⟨_, _, rfl, rfl, rfl⟩
  | object h => exact ⟨_, _, rfl, rfl, rfl⟩
  | negSucc h => exact ⟨_, _, compactChars_negSucc _, rfl, rfl⟩
  | nat h =>
    rename_i n
    obtain ⟨c, more, hfront⟩ := List.exists_cons_of_ne_nil
      (Text.toDigits_ne_nil (by omega : 1 < 10) n)
    have hdigit : c.isDigit = true :=
      Nat.isDigit_of_mem_toDigits (by omega) (by omega) (hfront ▸ List.mem_cons_self)
    have hne {d : Char} (hd : d.isDigit = false) : c ≠ d := by
      rintro rfl
      rw [hd] at hdigit
      cases hdigit
    refine ⟨c, more, ?_, ?_, ?_⟩
    · rw [compactChars_nat, hfront]
    · simp only [isSpace, Bool.or_eq_false_iff, decide_eq_false_iff_not]
      exact ⟨⟨⟨hne rfl, hne rfl⟩, hne rfl⟩, hne rfl⟩
    · simp only [isMark, Bool.or_eq_false_iff, decide_eq_false_iff_not]
      exact ⟨⟨hne rfl, hne rfl⟩, hne rfl⟩

/-- No blanks stand in front of a value. -/
theorem Fits.skipSpace_append {depth : Nat} {j : Json} (h : Fits depth j) (rest : List Char) :
    skipSpace (compactChars j ++ rest) = compactChars j ++ rest := by
  obtain ⟨c, more, hfront, hspace, -⟩ := h.exists_cons
  rw [hfront, List.cons_append, skipSpace, hspace]
  rfl

/-- A text that begins with a digit is read as a number. -/
theorem takeValue?_nat (fuel depth n : Nat) {rest : List Char} (hr : EndsNumber rest) :
    takeValue? (fuel + 1) depth (compactChars (.nat n) ++ rest) = some (.nat n, rest) := by
  have hnumber := takeNumber?_toDigits n hr
  have hdigit : ∀ c ∈ (Nat.toDigits 10 n ++ rest).head?, c.isDigit = true := by
    obtain ⟨first, more, hfront⟩ := List.exists_cons_of_ne_nil
      (Text.toDigits_ne_nil (by omega : 1 < 10) n)
    rintro _ hc
    rw [hfront, List.cons_append, List.head?_cons, Option.mem_some_iff] at hc
    subst hc
    exact Nat.isDigit_of_mem_toDigits (by omega) (by omega) (hfront ▸ List.mem_cons_self)
  rw [compactChars_nat]
  generalize Nat.toDigits 10 n ++ rest = text at hnumber hdigit
  rw [takeValue?.eq_def]
  split
  · next h => cases h
  · next h =>
    cases h
    split <;> first
      | exact absurd (hdigit _ rfl) (by decide)
      | rw [hnumber]; rfl

theorem takeValue?_negSucc (fuel depth n : Nat) {rest : List Char} (hr : EndsNumber rest) :
    takeValue? (fuel + 1) depth (compactChars (.int (.negSucc n)) ++ rest)
      = some (.int (.negSucc n), rest) := by
  rw [compactChars_negSucc, List.cons_append, takeValue?, takeNumber?,
    takeUnsigned?_toDigits true (n + 1) hr]
  · rfl
  all_goals simp

/-- A value is read back, with a step for each of its characters. -/
def ReadsBack (depth : Nat) (j : Json) : Prop :=
  ∀ fuel rest, (compactChars j).length ≤ fuel → EndsNumber rest →
    takeValue? fuel depth (compactChars j ++ rest) = some (j, rest)

/-- Items begin with the first of them. -/
theorem exists_compactItems_eq (item : Json) (others : List Json) :
    ∃ more, compactItems (item :: others) = compactChars item ++ more := by
  cases others with
  | nil => exact ⟨[], (List.append_nil _).symm⟩
  | cons other others => exact ⟨_, rfl⟩

theorem skipSpace_compactItems {depth : Nat} {item : Json} (h : Fits depth item)
    (others : List Json) (rest : List Char) :
    skipSpace (compactItems (item :: others) ++ rest) = compactItems (item :: others) ++ rest := by
  obtain ⟨more, hmore⟩ := exists_compactItems_eq item others
  rw [hmore, List.append_assoc, h.skipSpace_append]

/-- Items are read back up to the bracket that closes them. -/
theorem takeItems?_compactItems {depth : Nat} (item : Json) (others : List Json)
    (hfits : ∀ j ∈ item :: others, Fits depth j)
    (hreads : ∀ j ∈ item :: others, ReadsBack depth j) (fuel : Nat) (rest : List Char)
    (hfuel : (compactItems (item :: others)).length < fuel) :
    takeItems? fuel depth (compactItems (item :: others) ++ ']' :: rest)
      = some (item :: others, rest) := by
  induction others generalizing item fuel with
  | nil =>
    obtain ⟨fuel, rfl⟩ : ∃ more, fuel = more + 1 := ⟨fuel - 1, by omega⟩
    rw [compactItems] at hfuel ⊢
    rw [takeItems?, hreads item (.head _) fuel _ (by omega) (endsNumber_of_isMark rfl rest)]
    rfl
  | cons other others ih =>
    obtain ⟨fuel, rfl⟩ : ∃ more, fuel = more + 1 := ⟨fuel - 1, by omega⟩
    rw [compactItems, List.length_append, List.length_cons] at hfuel
    rw [compactItems, List.append_assoc, List.cons_append, takeItems?,
      hreads item (.head _) fuel _ (by omega) (endsNumber_of_isMark rfl _)]
    have hrest := ih other (fun j hj => hfits j (.tail _ hj)) (fun j hj => hreads j (.tail _ hj))
      fuel (by omega)
    simp only [skipSpace_of_isMark (show isMark ',' = true from rfl),
      skipSpace_compactItems (hfits other (.tail _ (.head _))), hrest, Option.map_some]

/-- An array is read if its items are. -/
theorem takeValue?_array {fuel depth : Nat} {item : Json} {others : List Json} {rest : List Char}
    (hfits : Fits depth item) (hitems : takeItems? fuel depth
      (compactItems (item :: others) ++ ']' :: rest) = some (item :: others, rest)) :
    takeValue? (fuel + 1) (depth + 1) (compactChars (.array (item :: others)) ++ rest)
      = some (.array (item :: others), rest) := by
  have htext : compactChars (.array (item :: others)) ++ rest
      = '[' :: (compactItems (item :: others) ++ ']' :: rest) := by
    simp [compactChars]
  rw [htext, takeValue?]
  simp only [skipSpace_compactItems hfits]
  split
  · next hempty =>
    -- The first item begins with no bracket that closes.
    obtain ⟨c, more, hfront, -, hmark⟩ := hfits.exists_cons
    obtain ⟨tail, htail⟩ := exists_compactItems_eq item others
    rw [htail, hfront, List.cons_append, List.cons_append, List.cons.injEq] at hempty
    rw [hempty.1] at hmark
    cases hmark
  · rw [hitems]
    rfl

/-- A member whose name has a text. -/
def named (member : String × Json) : Option String × Json := (some member.1, member.2)

theorem ofFields_eq (members : List (String × Json)) :
    ofFields members = .object (members.map named) := rfl

theorem member_append_eq (name : String) (value : Json) (rest : List Char) :
    stringText? (some name) ++ ':' :: (compactChars value ++ rest)
      = '"' :: (name.toList.flatMap escapedChar ++ '"' :: ':' :: (compactChars value ++ rest)) := by
  simp [stringText?, stringText]

theorem skipSpace_colon (rest : List Char) : skipSpace (':' :: rest) = ':' :: rest := rfl

/-- The last member is read. -/
theorem takeMembers?_last {fuel depth : Nat} {value : Json} {rest : List Char}
    (hfits : Fits depth value) (hread : takeValue? fuel depth (compactChars value ++ '\x7d' :: rest)
      = some (value, '\x7d' :: rest)) (name : String) :
    takeMembers? (fuel + 1) depth
        (stringText? (some name) ++ ':' :: (compactChars value ++ '\x7d' :: rest))
      = some ([(some name, value)], rest) := by
  rw [member_append_eq, takeMembers?]
  simp only [takeString?_append, skipSpace_colon, hfits.skipSpace_append, hread,
    skipSpace_of_isMark (show isMark '\x7d' = true from rfl)]

/-- A member is read, and then those behind it. -/
theorem takeMembers?_more {fuel depth : Nat} {value : Json} {rest : List Char}
    {others : List (Option String × Json)} {last : List Char} (hfits : Fits depth value)
    (hread : takeValue? fuel depth (compactChars value ++ ',' :: rest)
      = some (value, ',' :: rest))
    (hothers : takeMembers? fuel depth (skipSpace rest) = some (others, last)) (name : String) :
    takeMembers? (fuel + 1) depth
        (stringText? (some name) ++ ':' :: (compactChars value ++ ',' :: rest))
      = some ((some name, value) :: others, last) := by
  rw [member_append_eq, takeMembers?]
  simp only [takeString?_append, skipSpace_colon, hfits.skipSpace_append, hread,
    skipSpace_of_isMark (show isMark ',' = true from rfl), hothers, Option.map_some]

theorem skipSpace_compactMembers (name : String) (value : Json)
    (others : List (Option String × Json)) (rest : List Char) :
    skipSpace (compactMembers ((some name, value) :: others) ++ rest)
      = compactMembers ((some name, value) :: others) ++ rest := by
  cases others <;> rfl

/-- Members are read back up to the brace that closes them. -/
theorem takeMembers?_compactMembers {depth : Nat} (member : String × Json)
    (others : List (String × Json)) (hfits : ∀ m ∈ member :: others, Fits depth m.2)
    (hreads : ∀ m ∈ member :: others, ReadsBack depth m.2) (fuel : Nat) (rest : List Char)
    (hfuel : (compactMembers ((member :: others).map named)).length < fuel) :
    takeMembers? fuel depth (compactMembers ((member :: others).map named) ++ '\x7d' :: rest)
      = some ((member :: others).map named, rest) := by
  induction others generalizing member fuel with
  | nil =>
    obtain ⟨fuel, rfl⟩ : ∃ more, fuel = more + 1 := ⟨fuel - 1, by omega⟩
    simp only [List.map_cons, List.map_nil, named, compactMembers, List.length_append,
      List.length_cons] at hfuel ⊢
    rw [List.append_assoc, List.cons_append, takeMembers?_last (hfits _ (.head _))
      (hreads _ (.head _) fuel _ (by omega) (endsNumber_of_isMark rfl rest))]
  | cons other others ih =>
    obtain ⟨fuel, rfl⟩ : ∃ more, fuel = more + 1 := ⟨fuel - 1, by omega⟩
    have hrest := ih other (fun m hm => hfits m (.tail _ hm)) (fun m hm => hreads m (.tail _ hm))
      fuel
    simp only [List.map_cons, named, compactMembers, List.length_append,
      List.length_cons] at hfuel hrest ⊢
    rw [List.append_assoc, List.cons_append, List.append_assoc, List.cons_append]
    refine takeMembers?_more (hfits _ (.head _))
      (hreads _ (.head _) fuel _ (by omega) (endsNumber_of_isMark rfl _)) ?_ _
    rw [skipSpace_compactMembers]
    exact hrest (by omega)

/-- An object is read if its members are. -/
theorem takeValue?_object {fuel depth : Nat} {member : String × Json}
    {others : List (String × Json)} {rest : List Char} (hmembers : takeMembers? fuel depth
      (compactMembers ((member :: others).map named) ++ '\x7d' :: rest)
        = some ((member :: others).map named, rest)) :
    takeValue? (fuel + 1) (depth + 1) (compactChars (.ofFields (member :: others)) ++ rest)
      = some (.ofFields (member :: others), rest) := by
  have htext : compactChars (.ofFields (member :: others)) ++ rest
      = '\x7b' :: (compactMembers ((member :: others).map named) ++ '\x7d' :: rest) := by
    simp [ofFields_eq, compactChars]
  rw [htext, takeValue?]
  simp only [List.map_cons, named, skipSpace_compactMembers] at hmembers ⊢
  split
  · next hempty => cases others <;> cases (List.cons.inj hempty).1
  · rw [hmembers]
    rfl

/-- A value has a character, so there is a step for it. -/
theorem Fits.readsBack_of_succ {depth : Nat} {j : Json} (h : Fits depth j)
    (hs : ∀ fuel rest, (compactChars j).length ≤ fuel + 1 → EndsNumber rest →
      takeValue? (fuel + 1) depth (compactChars j ++ rest) = some (j, rest)) :
    ReadsBack depth j := by
  intro fuel rest hfuel hr
  obtain ⟨c, more, hfront, -⟩ := h.exists_cons
  obtain ⟨fuel, rfl⟩ : ∃ more, fuel = more + 1 := by
    rw [hfront, List.length_cons] at hfuel
    exact ⟨fuel - 1, by omega⟩
  exact hs fuel rest hfuel hr

/-- **A value is read back, and what follows it is left.** -/
theorem Fits.readsBack {depth : Nat} {j : Json} (h : Fits depth j) : ReadsBack depth j := by
  refine h.readsBack_of_succ fun fuel rest hfuel hr => ?_
  -- Every bracket and every item takes a step, and each has a character of its own.
  induction h generalizing fuel rest with
  | null => rfl
  | bool b => cases b <;> rfl
  | nat => exact takeValue?_nat fuel _ _ hr
  | negSucc => exact takeValue?_negSucc fuel _ _ hr
  | text s =>
    have htext : compactChars (.text s) ++ rest
        = '"' :: (s.toList.flatMap escapedChar ++ '"' :: rest) := by
      simp [Json.text, compactChars, stringText?, stringText]
    rw [htext, takeValue?, takeString?_append]
    rfl
  | @array depth items h ih =>
    have hreads := fun j hj => (h j hj).readsBack_of_succ (ih j hj)
    cases items with
    | nil => rfl
    | cons item others =>
      have hitems : (compactItems (item :: others)).length < fuel := by
        simp only [compactChars, List.length_append, List.length_cons] at hfuel
        omega
      exact takeValue?_array (h item (.head _))
        (takeItems?_compactItems item others h hreads fuel rest hitems)
  | @object depth members h ih =>
    have hreads := fun m hm => (h m hm).readsBack_of_succ (ih m hm)
    cases members with
    | nil => rfl
    | cons member others =>
      have hmembers : (compactMembers ((member :: others).map named)).length < fuel := by
        rw [ofFields_eq, compactChars, List.length_append, List.length_cons] at hfuel
        simp only [List.length_cons, List.length_nil] at hfuel
        omega
      exact takeValue?_object
        (takeMembers?_compactMembers member others h hreads fuel rest hmembers)

/-- **The text of a value is the value.** -/
theorem ofText?_compactChars {depth : Nat} {j : Json} (h : Fits depth j) :
    ofText? depth (compactChars j) = some j := by
  have hread := h.readsBack (2 * (compactChars j).length + 2) [] (by omega) endsNumber_nil
  have hskip := h.skipSpace_append []
  rw [List.append_nil] at hread hskip
  rw [ofText?, hskip, hread]
  rfl

end EventLog.Json
