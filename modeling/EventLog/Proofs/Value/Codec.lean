import EventLog.Proofs.Message.Codec
import EventLog.Proofs.Named
import EventLog.Signal.Codec

/-!
# EventLog.Proofs.Value.Codec

What is written of a typed value is read back, unless a double is in it.

* `Json.nesting`: how many brackets are open at one place;
* `Plain`: values without doubles, whose dictionaries are in order;
* `Plain.fits`: such a value is read back as JSON;
* `Plain.ofJson?_toJson`: and it is understood, however deep its dictionaries go.
-/

namespace EventLog

/-! ## Open brackets -/

namespace Json

mutual

/-- The most brackets that are open at one place of a value's text. -/
def nesting : Json → Nat
  | .array items => nestingOfItems items + 1
  | .object members => nestingOfMembers members + 1
  | _ => 0

/-- The most brackets that are open within one of the items. -/
def nestingOfItems : List Json → Nat
  | [] => 0
  | item :: rest => max item.nesting (nestingOfItems rest)

/-- The most brackets that are open within one of the members. -/
def nestingOfMembers : List (Option String × Json) → Nat
  | [] => 0
  | (_, value) :: rest => max value.nesting (nestingOfMembers rest)

end

variable {depth : Nat}

theorem nestingOfItems_le {items : List Json} :
    nestingOfItems items ≤ depth ↔ ∀ item ∈ items, item.nesting ≤ depth := by
  induction items with
  | nil => simp [nestingOfItems]
  | cons item items ih => simp [nestingOfItems, ih]

theorem nestingOfMembers_le {members : List (String × Json)} :
    nestingOfMembers (members.map named) ≤ depth
      ↔ ∀ member ∈ members, member.2.nesting ≤ depth := by
  induction members with
  | nil => simp [nestingOfMembers]
  | cons member members ih => simp [nestingOfMembers, named, ih]

/-- An array is nested one deeper than its items. -/
theorem exists_depth_of_array {items : List Json} (h : (array items).nesting ≤ depth) :
    ∃ below, depth = below + 1 ∧ ∀ item ∈ items, item.nesting ≤ below := by
  rw [nesting] at h
  exact ⟨depth - 1, by omega, nestingOfItems_le.mp (by omega)⟩

/-- An object is nested one deeper than its members. -/
theorem exists_depth_of_ofFields {members : List (String × Json)}
    (h : (ofFields members).nesting ≤ depth) :
    ∃ below, depth = below + 1 ∧ ∀ member ∈ members, member.2.nesting ≤ below := by
  rw [ofFields_eq, nesting] at h
  exact ⟨depth - 1, by omega, nestingOfMembers_le.mp (by omega)⟩

end Json

/-! ## Values -/

namespace Value

/-- A value without doubles.  Every dictionary in it has each name once, and is in
the order of the names. -/
inductive Plain : Value → Prop where
  | bool (b : Bool) : Plain (.bool b)
  | byte (b : UInt8) : Plain (.byte b)
  | int64 (i : Int64) : Plain (.int64 i)
  | uint64 (n : UInt64) : Plain (.uint64 n)
  | str (s : String) : Plain (.str s)
  | bytes (bs : List UInt8) : Plain (.bytes bs)
  | dict {entries : Properties} (hsorted : Named.Sorted entries)
      (h : ∀ entry ∈ entries, Plain entry.2) : Plain (.dict entries)

/-- Properties without doubles, in the order of their names. -/
def PlainProperties (properties : Properties) : Prop :=
  Named.Sorted properties ∧ ∀ entry ∈ properties, entry.2.Plain

theorem membersToJson_eq (entries : Properties) :
    membersToJson entries
      = (entries.map fun entry => (entry.1, entry.2.toJson)).map Json.named := by
  induction entries with
  | nil => rfl
  | cons entry entries ih =>
    rw [membersToJson, ih]
    rfl

theorem propertiesToJson_eq (properties : Properties) :
    propertiesToJson properties
      = .ofFields (properties.map fun entry => (entry.1, entry.2.toJson)) := by
  rw [propertiesToJson, membersToJson_eq, Json.ofFields_eq]

/-- A signed integer keeps within its bits. -/
theorem toInt_bounds (i : Int64) :
    -Text.signedLimit ≤ i.toInt ∧ i.toInt ≤ (Text.signedLimit : Int) - 1 := by
  have hlow := i.le_toInt
  have hhigh := i.toInt_lt
  simp only [Text.signedLimit]
  omega

/-! ## Writing -/

variable {v : Value} {depth : Nat} {name : String} {content : Json}

/-- A tagged value is nested one deeper than its content. -/
theorem exists_depth_of_tagged (h : (toJson.tagged name content).nesting ≤ depth) :
    ∃ below, depth = below + 1 ∧ content.nesting ≤ below := by
  obtain ⟨below, hdepth, hmembers⟩ := Json.exists_depth_of_ofFields h
  exact ⟨below, hdepth, hmembers ("value", content) (by simp)⟩

theorem exists_depth_of_properties {properties : Properties}
    (h : (propertiesToJson properties).nesting ≤ depth) :
    ∃ below, depth = below + 1 ∧ ∀ entry ∈ properties, entry.2.toJson.nesting ≤ below := by
  rw [propertiesToJson_eq] at h
  obtain ⟨below, hdepth, hmembers⟩ := Json.exists_depth_of_ofFields h
  exact ⟨below, hdepth, fun entry hentry => hmembers _ (List.mem_map_of_mem hentry)⟩

/-- A value is made of what is read back, if its content is. -/
theorem fits_tagged (h : (toJson.tagged name content).nesting ≤ depth)
    (hcontent : ∀ below, content.nesting ≤ below → content.Fits below) :
    (toJson.tagged name content).Fits depth := by
  obtain ⟨below, rfl, hn⟩ := exists_depth_of_tagged h
  exact .fields ⟨.text name, hcontent below hn⟩

/-- Every signed integer can be read back. -/
theorem fits_int (i : Int64) : (Json.int i.toInt).Fits depth := by
  have hbounds := toInt_bounds i
  cases hi : i.toInt with
  | ofNat n =>
    refine .nat ?_
    simp only [hi, Text.signedLimit, Text.wordLimit, Int.ofNat_eq_natCast] at hbounds ⊢
    omega
  | negSucc n => exact .negSucc (by omega)

/-- A list of bytes can be read back, if it is nested no deeper than allowed. -/
theorem fits_bytes {bs : List UInt8} (h : (Json.bytes bs).nesting ≤ depth) :
    (Json.bytes bs).Fits depth := by
  obtain ⟨below, rfl, -⟩ := Json.exists_depth_of_array h
  exact .bytes bs

/-- Properties can be read back if each of them can. -/
theorem fits_properties {properties : Properties}
    (h : (propertiesToJson properties).nesting ≤ depth)
    (hentries : ∀ entry ∈ properties, ∀ {below}, entry.2.toJson.nesting ≤ below →
      entry.2.toJson.Fits below) :
    (propertiesToJson properties).Fits depth := by
  obtain ⟨below, rfl, hn⟩ := exists_depth_of_properties h
  rw [propertiesToJson_eq]
  exact .object (List.forall_mem_map.mpr fun entry hentry =>
    hentries entry hentry (hn entry hentry))

/-- **A value without doubles** is made of what is read back as JSON. -/
theorem Plain.fits (h : v.Plain) (hn : v.toJson.nesting ≤ depth) : v.toJson.Fits depth := by
  induction h generalizing depth with
  | bool b => exact fits_tagged hn fun _ _ => .bool b
  | byte b => exact fits_tagged hn fun _ _ => .byte b
  | int64 i => exact fits_tagged hn fun _ _ => fits_int i
  | uint64 n => exact fits_tagged hn fun _ _ => .nat n.toNat_lt
  | str s => exact fits_tagged hn fun _ _ => .text s
  | bytes bs => exact fits_tagged hn fun _ hn => fits_bytes hn
  | dict _ _ ih => exact fits_tagged hn fun _ hn => fits_properties hn ih

/-! ## Reading -/

/-- A type and a content in this order are found. -/
theorem tagged?_tagged (held : Bool) (depth : Nat) (name : String) (content : Json) :
    tagged? held depth (toJson.tagged name content) = some (name, content, held) := by
  simp [tagged?, toJson.tagged, Json.ofFields, Json.names?, Json.member?, Json.text, Json.choice?]

/-- Entries that are in order are read under their names. -/
theorem entries?_of_sorted {decode : Json → Option Value} {entries : Properties}
    (hsorted : Named.Sorted entries)
    (h : ∀ entry ∈ entries, decode entry.2.toJson = some entry.2) :
    entries? decode (membersToJson entries) = some entries := by
  have hread (member? : Option String × Json → Option (String × Value)) :=
    @Json.mapM_map_eq_some _ _ _ (Json.named ∘ fun entry => (entry.1, entry.2.toJson)) member? id
      entries
  rw [entries?, membersToJson_eq, List.map_map, hread, List.map_id]
  · exact congrArg some (Named.ofList_of_sorted hsorted)
  · intro entry hentry
    simp [Json.named, h entry hentry]

/-- **A value without doubles is understood** from the JSON that is written of it,
however deep its dictionaries go. -/
theorem Plain.ofJson?_toJson (h : v.Plain) (held : Bool) (hn : v.toJson.nesting ≤ depth) :
    ofJson? held depth v.toJson = some v := by
  -- The reader takes as many steps as brackets may be opened, one for each type and content.
  induction h generalizing held depth with
  | bool | str =>
    obtain ⟨below, rfl, -⟩ := exists_depth_of_tagged hn
    rw [toJson, ofJson?, tagged?_tagged]
    rfl
  | byte b =>
    obtain ⟨below, rfl, -⟩ := exists_depth_of_tagged hn
    rw [toJson, ofJson?, tagged?_tagged]
    simp
  | int64 i =>
    obtain ⟨below, rfl, -⟩ := exists_depth_of_tagged hn
    rw [toJson, ofJson?, tagged?_tagged]
    simp [Json.intWithin?_int (toInt_bounds i)]
  | uint64 n =>
    obtain ⟨below, rfl, -⟩ := exists_depth_of_tagged hn
    have hread : (Json.nat n.toNat).natBelow? Text.wordLimit = some n.toNat :=
      Json.natBelow?_nat n.toNat_lt (Nat.le_refl _)
    rw [toJson, ofJson?, tagged?_tagged]
    simp [hread]
  | bytes bs =>
    obtain ⟨below, rfl, hcontent⟩ := exists_depth_of_tagged hn
    obtain ⟨below, rfl, -⟩ := Json.exists_depth_of_array hcontent
    have hread : (Json.bytes bs).items? Json.byte? = some bs := Json.bytes?_bytes bs
    rw [toJson, ofJson?, tagged?_tagged]
    simpa [Json.bytes] using hread
  | dict hsorted _ ih =>
    obtain ⟨below, rfl, hcontent⟩ := exists_depth_of_tagged hn
    obtain ⟨below, rfl, hentries⟩ := exists_depth_of_properties hcontent
    have hread := entries?_of_sorted hsorted fun entry hentry =>
      ih entry hentry held (hentries entry hentry)
    rw [toJson, ofJson?, tagged?_tagged]
    simp [hread]

/-- **Properties without doubles are understood** from the JSON that is written of them. -/
theorem propertiesOfJson?_toJson {properties : Properties} (h : PlainProperties properties)
    (held : Bool) (hn : (propertiesToJson properties).nesting ≤ depth) :
    propertiesOfJson? held depth (propertiesToJson properties) = some properties := by
  obtain ⟨below, rfl, hentries⟩ := exists_depth_of_properties hn
  exact entries?_of_sorted h.1 fun entry hentry =>
    (h.2 entry hentry).ofJson?_toJson held (hentries entry hentry)

end Value

/-! ## Signals -/

namespace Signal

variable {s : Signal} {depth : Nat}

/-- A signal whose arguments have no doubles. -/
def Plain (s : Signal) : Prop := ∀ value ∈ s.args, value.Plain

/-- The arguments of a signal are nested two deep. -/
theorem exists_depth (h : s.toJson.nesting ≤ depth) :
    ∃ below, depth = below + 2 ∧ ∀ value ∈ s.args, value.toJson.nesting ≤ below := by
  obtain ⟨below, rfl, hmembers⟩ := Json.exists_depth_of_ofFields h
  have hargs : (Json.array (s.args.map Value.toJson)).nesting ≤ below :=
    hmembers ("args", _) (by simp)
  obtain ⟨below, rfl, hitems⟩ := Json.exists_depth_of_array hargs
  exact ⟨below, rfl, List.forall_mem_map.mp hitems⟩

/-- A plain signal can be read back. -/
theorem Plain.fits (h : s.Plain) (hn : s.toJson.nesting ≤ depth) : s.toJson.Fits depth := by
  obtain ⟨below, rfl, hargs⟩ := exists_depth hn
  exact .fields ⟨.text _, .text _, .text _, .text _,
    .map fun value hvalue => (h value hvalue).fits (hargs value hvalue)⟩

/-- **A signal without doubles is understood** from the JSON that is written of it. -/
theorem Plain.ofJson?_toJson (h : s.Plain) (held : Bool) (hn : s.toJson.nesting ≤ depth) :
    ofJson? held depth s.toJson = some s := by
  obtain ⟨below, rfl, hargs⟩ := exists_depth hn
  have hfields : s.toJson.fields? ["sender", "path", "interface", "member", "args"] 4 = _ :=
    Json.fields?_ofFields (by simp) 4
  have hread : (Json.array (s.args.map Value.toJson)).items? (Value.ofJson? held below)
      = some s.args :=
    Json.items?_map fun value hvalue =>
      (h value hvalue).ofJson?_toJson held (hargs value hvalue)
  rw [ofJson?, hfields]
  simp [hread, Json.text, Json.text?]

end Signal

end EventLog
