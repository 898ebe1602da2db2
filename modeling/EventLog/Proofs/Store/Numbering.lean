import EventLog.Proofs.Allocator
import EventLog.Proofs.Store.Run
import Mathlib.Data.List.Pairwise

/-!
# EventLog.Proofs.Store.Numbering

Which numbers the lines of a log carry.

A line that is added may end one that had no end, and a file that is written
anew loses the carriage returns at the ends of its lines.  Neither gives a
number to a line that a file had before, if none ends in a carriage return
without having one (`IsSettled`).

* `Numbered`: the files of a log carry no number twice;
* `Numbered.makeRoom`, `Numbered.add`, `Numbered.remove`: what operations do to
  the files keeps it so;
* `nodup_ids_iff`: the numbers of all files together.
-/

namespace EventLog

open Disk (StandsAt Turns Table)
open Step

/-- The numbers on the lines of what stands under a name. -/
def idsAt (node? : Option Node) : List RecordId := (linesAt node?).filterMap Line.recordId?

/-- A line does not get a number when it loses the carriage return at its end. -/
def IsSettled (line : List Char) : Prop :=
  line.getLast? = some '\r' → (Line.recordId? line).isSome

theorem recordId?_stripReturn {line : List Char} (h : IsSettled line) :
    Line.recordId? (linesOf.stripReturn line) = Line.recordId? line := by
  rcases eq_concat_or_stripReturn_eq line with he | ⟨-, he⟩
  · have hsome := h (by rw [he, List.getLast?_concat])
    obtain ⟨id, hid⟩ := Option.isSome_iff_exists.mp hsome
    rw [hid]
    rw [he] at hid
    exact Line.recordId?_append_word (by decide) (by decide) (List.mem_singleton.mpr rfl) (by decide)
      (by decide) hid
  · rw [he]

/-- A settled line stays so when it is read. -/
theorem IsSettled.stripReturn {line : List Char} (h : IsSettled line) :
    IsSettled (linesOf.stripReturn line) := by
  intro hreturn
  rcases eq_concat_or_stripReturn_eq line with he | ⟨hne, he⟩
  · rw [recordId?_stripReturn h]
    exact h (by rw [he, List.getLast?_concat])
  · rw [he] at hreturn
    exact absurd hreturn hne

/-- A line that does not end in a carriage return is settled. -/
theorem isSettled_of_ne {line : List Char} (h : line.getLast? ≠ some '\r') : IsSettled line :=
  fun hreturn => absurd hreturn h

/-- A line of a file has no line feed in it, and is not blank. -/
theorem of_mem_linesAt {node? : Option Node} {line : List Char} (h : line ∈ linesAt node?) :
    '\n' ∉ line ∧ Text.isBlankText line = false := by
  unfold linesAt at h
  split at h
  · next bytes _ =>
    cases htext : String.fromUTF8? bytes with
    | none => simp [htext] at h
    | some text =>
      rw [htext] at h
      exact of_mem_storedLines h
  · cases h

/-- A line brings at most one number to whatever it is added to. -/
def Brings (id : RecordId) (line : List Char) : Prop :=
  ∀ last, (Line.recordId? (last ++ line)).toList.Sublist ((Line.recordId? last).toList ++ [id])

/-- The numbers on a file after a line was added to it. -/
theorem idsAt_append_line {text line : List Char} (hline : IsStoredLine line) {id : RecordId}
    (hid : Brings id line) :
    ((storedLines (text ++ (line ++ ['\n']))).filterMap Line.recordId?).Sublist
      ((storedLines text).filterMap Line.recordId? ++ [id]) := by
  obtain ⟨earlier, last, htext, hadd⟩ := storedLines_append_line text
  have hlast : (if Text.isBlankText last then [] else [last]).filterMap Line.recordId?
      = (Line.recordId? last).toList := by
    split
    · next hblank =>
      rw [Line.recordId?_of_isBlankText hblank]
      rfl
    · cases h : Line.recordId? last <;> simp [h]
  have hnew : [last ++ line].filterMap Line.recordId? = (Line.recordId? (last ++ line)).toList := by
    cases h : Line.recordId? (last ++ line) <;> simp [h]
  rw [hadd line hline, htext, List.filterMap_append, List.filterMap_append, hlast, hnew,
    List.append_assoc]
  exact (List.Sublist.refl _).append (hid last)

namespace StoreConfig

variable {config : StoreConfig} {place : Place} {disk : Disk} {table table' : Table}

/-- A record with a number is stored. -/
def Holds (config : StoreConfig) (table : Table) (id : RecordId) : Prop :=
  ∃ name, config.IsLogFile name ∧ id ∈ idsAt (table name)

/-- The files of a log can be read, and carry no number twice. -/
structure Numbered (config : StoreConfig) (table : Table) : Prop where
  readable : config.Readable table
  once : ∀ name, config.IsLogFile name → (idsAt (table name)).Nodup
  apart : ∀ name other id, config.IsLogFile name → config.IsLogFile other →
    id ∈ idsAt (table name) → id ∈ idsAt (table other) → name = other
  settled : ∀ name, config.IsLogFile name → ∀ line ∈ linesAt (table name), IsSettled line

/-! ## Making room -/

/-- Rotation leaves under a name what was under another one, or what was there. -/
def MovedTo (config : StoreConfig) (source name : String) : Prop :=
  (∃ j, j + 1 < config.maxFiles ∧ source = config.nameAt j ∧ name = config.nameAt (j + 1)) ∨
    source = name ∧ ∀ j, j < max config.maxFiles 1 → name ≠ config.nameAt j

/-- Rotation gives every file one new name at most. -/
theorem MovedTo.eq_of_eq (hword : config.HasWord) {source name other : String}
    (h : config.MovedTo source name) (h' : config.MovedTo source other) : name = other := by
  have hlimit : config.maxFiles < Text.wordLimit := hword
  obtain ⟨i, hi, rfl, rfl⟩ | ⟨rfl, hne⟩ := h <;> obtain ⟨j, hj, hsource, rfl⟩ | ⟨rfl, hne'⟩ := h'
  · rw [nameAt_inj (by omega) (by omega)] at hsource
    rw [hsource]
  · exact absurd rfl (hne' i (by omega))
  · exact absurd hsource (hne j (by omega))
  · rfl

/-- What rotation makes a file of the log was one before. -/
theorem MovedTo.isLogFile (hword : config.HasWord) {source name : String}
    (h : config.MovedTo source name) (hname : config.IsLogFile name) : config.IsLogFile source := by
  have hlimit : config.maxFiles < Text.wordLimit := hword
  obtain ⟨j, hj, rfl, -⟩ | ⟨rfl, -⟩ := h
  · exact isLogFile_nameAt config (by omega)
  · exact hname

/-- After rotation, a name has nothing or what was moved to it. -/
theorem Rotated.eq_none_or (h : config.Rotated table table') (name : String) :
    table' name = none ∨ ∃ source, config.MovedTo source name ∧ table' name = table source := by
  by_cases hnumber : ∃ j, j < max config.maxFiles 1 ∧ name = config.nameAt j
  · obtain ⟨j, hj, rfl⟩ := hnumber
    cases j with
    | zero => exact .inl h.active
    | succ j =>
      have hlt : j + 1 < config.maxFiles := by omega
      exact .inr ⟨_, .inl ⟨j, hlt, rfl, rfl⟩, h.moved j hlt⟩
  · have hne (j : Nat) (hj : j < max config.maxFiles 1) : name ≠ config.nameAt j :=
      fun he => hnumber ⟨j, hj, he⟩
    exact .inr ⟨name, .inr ⟨rfl, hne⟩, h.other name hne⟩

/-- Every number that stands behind a rotation stood before it, in the file it came from. -/
theorem Rotated.exists_source (h : config.Rotated table table') {name : String} {id : RecordId}
    (hid : id ∈ idsAt (table' name)) :
    ∃ source, config.MovedTo source name ∧ id ∈ idsAt (table source) := by
  rcases h.eq_none_or name with hnone | ⟨source, hmoved, heq⟩
  · rw [hnone] at hid
    exact absurd hid List.not_mem_nil
  · exact ⟨source, hmoved, heq ▸ hid⟩

/-- A rotation keeps the numbers apart. -/
theorem Numbered.rotate (hword : config.HasWord) (h : config.Numbered table)
    (hread : config.Readable table') (hrotated : config.Rotated table table') :
    config.Numbered table' where
  readable := hread
  once name hname := by
    rcases hrotated.eq_none_or name with hnone | ⟨source, hmoved, heq⟩
    · rw [hnone]
      exact List.nodup_nil
    · rw [heq]
      exact h.once source (hmoved.isLogFile hword hname)
  apart name other id hname hother hid hid' := by
    obtain ⟨source, hmoved, hs⟩ := hrotated.exists_source hid
    obtain ⟨source', hmoved', hs'⟩ := hrotated.exists_source hid'
    obtain rfl := h.apart source source' id (hmoved.isLogFile hword hname)
      (hmoved'.isLogFile hword hother) hs hs'
    exact hmoved.eq_of_eq hword hmoved'
  settled name hname line hline := by
    rcases hrotated.eq_none_or name with hnone | ⟨source, hmoved, heq⟩
    · rw [hnone] at hline
      exact absurd hline List.not_mem_nil
    · rw [heq] at hline
      exact h.settled source (hmoved.isLogFile hword hname) line hline

/-- Making room for a line adds no number. -/
theorem Numbered.makeRoom (hword : config.HasWord) (h : config.Numbered table)
    (hread : config.Readable table') (hroom : config.MakesRoom table table') :
    config.Numbered table' ∧ ∀ id, config.Holds table' id → config.Holds table id := by
  rcases hroom with ⟨-, rfl⟩ | ⟨-, hrotated⟩
  · exact ⟨h, fun _ hid => hid⟩
  · refine ⟨h.rotate hword hread hrotated, ?_⟩
    rintro id ⟨name, hname, hid⟩
    obtain ⟨source, hmoved, hs⟩ := hrotated.exists_source hid
    exact ⟨source, hmoved.isLogFile hword hname, hs⟩

/-! ## One more line, and fewer -/

/-- A file with other lines takes the place of one; the numbers on it are those
that were there, or some that no file had. -/
theorem Numbered.update (h : config.Numbered table) {name : String} (hname : config.IsLogFile name)
    {node : Node} (htext : IsTextFile name node) {fresh : List RecordId}
    (hsub : (idsAt (some node)).Sublist (idsAt (table name) ++ fresh)) (hfresh : fresh.Nodup)
    (hnew : ∀ id ∈ fresh, ¬ config.Holds table id)
    (hsettled : ∀ line ∈ linesAt (some node), IsSettled line) :
    config.Numbered (Function.update table name (some node)) := by
  have hnot (other : String) (hother : config.IsLogFile other) (id : RecordId)
      (hid : id ∈ idsAt (table other)) : id ∉ fresh := fun hf => hnew id hf ⟨other, hother, hid⟩
  -- A number of the new file that another file has too was there before.
  have hapart (other : String) (hother : config.IsLogFile other) (id : RecordId)
      (hid : id ∈ idsAt (some node)) (hid' : id ∈ idsAt (table other)) : name = other := by
    rcases List.mem_append.mp (hsub.subset hid) with hold | hf
    · exact h.apart name other id hname hother hold hid'
    · exact absurd hf (hnot other hother id hid')
  refine ⟨h.readable.update_some htext, fun other hother => ?_, fun a b id ha hb hida hidb => ?_,
    fun other hother line hline => ?_⟩
  · by_cases he : other = name
    · rw [he, Function.update_self]
      refine hsub.nodup (List.nodup_append.mpr ⟨h.once name hname, hfresh, fun id hid new hf => ?_⟩)
      rintro rfl
      exact hnot name hname id hid hf
    · rw [Function.update_of_ne he]
      exact h.once other hother
  · by_cases hea : a = name <;> by_cases heb : b = name
    · rw [hea, heb]
    · rw [hea, Function.update_self] at hida
      rw [Function.update_of_ne heb] at hidb
      rw [hea, hapart b hb id hida hidb]
    · rw [Function.update_of_ne hea] at hida
      rw [heb, Function.update_self] at hidb
      rw [heb, hapart a ha id hidb hida]
    · rw [Function.update_of_ne hea] at hida
      rw [Function.update_of_ne heb] at hidb
      exact h.apart a b id ha hb hida hidb
  · by_cases he : other = name
    · rw [he, Function.update_self] at hline
      exact hsettled line hline
    · rw [Function.update_of_ne he] at hline
      exact h.settled other hother line hline

/-- A number stands in the file that was changed, or in another one. -/
theorem holds_update {name : String} {node? : Option Node} {id : RecordId}
    (h : config.Holds (Function.update table name node?) id) :
    id ∈ idsAt node? ∨
      ∃ other, other ≠ name ∧ config.IsLogFile other ∧ id ∈ idsAt (table other) := by
  obtain ⟨other, hother, hid⟩ := h
  by_cases he : other = name
  · rw [he, Function.update_self] at hid
    exact .inl hid
  · rw [Function.update_of_ne he] at hid
    exact .inr ⟨other, he, hother, hid⟩

/-- A new record adds no number but its own. -/
theorem Numbered.add (h : config.Numbered table) {text line : List Char}
    (htext : HasText (table config.logName) text)
    (hfits : config.logName.utf8ByteSize ≤ Disk.nameLimit) (hline : IsStoredLine line)
    {id : RecordId} (hid : Brings id line) (hnew : ¬ config.Holds table id) (number : Nat)
    (time : Timestamp) :
    let table' := Function.update table config.logName
      (some (.file number (bytesOf (text ++ (line ++ ['\n']))) time))
    config.Numbered table' ∧
      ∀ other, config.Holds table' other → config.Holds table other ∨ other = id := by
  intro table'
  have hactive := isLogFile_logName config
  have hsub := @idsAt_append_line text line hline id hid
  have hold : idsAt (table config.logName) = (storedLines text).filterMap Line.recordId? := by
    rw [idsAt, htext.linesAt_eq]
  rw [← hold, ← linesAt_file number _ time] at hsub
  refine ⟨h.update hactive ⟨hfits, number, _, time, rfl⟩ hsub (List.nodup_singleton id)
    (fun other hother => ?_) (fun l hl => ?_), fun other hother => ?_⟩
  · rw [List.mem_singleton] at hother
    rwa [hother]
  · rw [linesAt_file] at hl
    obtain ⟨earlier, last, htext', hadd⟩ := storedLines_append_line text
    rw [hadd line hline] at hl
    rcases List.mem_append.mp hl with hl | hl
    · refine h.settled config.logName hactive l ?_
      rw [htext.linesAt_eq, htext']
      exact List.mem_append_left _ hl
    · rw [List.mem_singleton] at hl
      refine isSettled_of_ne ?_
      have hend := hline.carriageReturn
      rw [List.getLast?_eq_some_getLast hline.ne_nil] at hend
      rwa [hl, List.getLast?_append, List.getLast?_eq_some_getLast hline.ne_nil]
  · rcases holds_update hother with hmem | ⟨name, -, hname, hmem⟩
    · rcases List.mem_append.mp (hsub.subset hmem) with hmem | hmem
      · exact .inl ⟨_, hactive, hmem⟩
      · exact .inr (List.mem_singleton.mp hmem)
    · exact .inl ⟨name, hname, hmem⟩

/-- Taking a draft away changes none of the log's files. -/
theorem update_draft_of_isLogFile {name other : String} (hname : config.IsLogFile name)
    (hother : config.IsLogFile other) :
    Function.update table (draftName name) none other = table other := by
  refine Function.update_of_ne ?_ _ _
  rintro rfl
  exact not_isLogFile_draftName hname hother

theorem Numbered.update_draft (h : config.Numbered table) {name : String}
    (hname : config.IsLogFile name) :
    config.Numbered (Function.update table (draftName name) none) := by
  refine ⟨h.readable.update_none _, fun a ha => ?_, fun a b id ha hb => ?_, fun a ha => ?_⟩
  · rw [update_draft_of_isLogFile hname ha]
    exact h.once a ha
  · rw [update_draft_of_isLogFile hname ha, update_draft_of_isLogFile hname hb]
    exact h.apart a b id ha hb
  · rw [update_draft_of_isLogFile hname ha]
    exact h.settled a ha

/-- Lines that are kept keep their numbers, and no other file has the number
whose lines are not kept. -/
theorem Numbered.remove (h : config.Numbered table) {name : String} (hname : config.IsLogFile name)
    (hfits : name.utf8ByteSize ≤ Disk.nameLimit) {id : RecordId} (hid : id ∈ idsAt (table name))
    {kept : List (List Char)} (hkept : kept.Sublist (linesAt (table name)))
    (hgone : ∀ line ∈ kept, Line.recordId? line ≠ some id) (number : Nat) (time : Timestamp) :
    let table' := Function.update (Function.update table (draftName name) none) name
      (some (.file number (bytesOf (textOfLines kept)) time))
    config.Numbered table' ∧
      ∀ other, config.Holds table' other → config.Holds table other ∧ other ≠ id := by
  intro table'
  have hsettled (line : List Char) (hline : line ∈ kept) : IsSettled line :=
    h.settled name hname line (hkept.subset hline)
  have hlines : linesAt (some (.file number (bytesOf (textOfLines kept)) time))
      = kept.map linesOf.stripReturn := by
    rw [linesAt_file, storedLines_textOfLines_eq]
    exact fun line hline => of_mem_linesAt (hkept.subset hline)
  have hids : idsAt (some (.file number (bytesOf (textOfLines kept)) time))
      = kept.filterMap Line.recordId? := by
    rw [idsAt, hlines, List.filterMap_map]
    exact List.filterMap_congr fun line hline => recordId?_stripReturn (hsettled line hline)
  have hsub : (kept.filterMap Line.recordId?).Sublist (idsAt (table name)) := hkept.filterMap _
  refine ⟨(h.update_draft hname).update hname ⟨hfits, number, _, time, rfl⟩ ?_ List.nodup_nil
    (by simp) (fun line hline => ?_), fun other hother => ?_⟩
  · rw [update_draft_of_isLogFile hname hname, List.append_nil, hids]
    exact hsub
  · rw [hlines] at hline
    obtain ⟨old, hold, rfl⟩ := List.mem_map.mp hline
    exact (hsettled old hold).stripReturn
  · rcases holds_update hother with hk | ⟨name', hne, hname', hk⟩
    · rw [hids] at hk
      refine ⟨⟨name, hname, hsub.subset hk⟩, ?_⟩
      rintro rfl
      obtain ⟨line, hline, hlineId⟩ := List.mem_filterMap.mp hk
      exact hgone line hline hlineId
    · rw [update_draft_of_isLogFile hname hname'] at hk
      refine ⟨⟨name', hname', hk⟩, ?_⟩
      rintro rfl
      exact hne (h.apart name' name other hname' hname hk hid)

/-! ## The numbers of all files -/

/-- A file of the log with lines is among those that are listed. -/
theorem mem_logNames_of_mem_linesAt {name : String} (hname : config.IsLogFile name)
    {line : List Char} (hline : line ∈ linesAt (disk.children place name)) :
    name ∈ config.logNames disk place := by
  refine mem_logNames.mpr ⟨?_, hname⟩
  cases h : disk.children place name with
  | none =>
    rw [h] at hline
    exact absurd hline List.not_mem_nil
  | some node => rfl

theorem mem_logNames_of_mem_idsAt {name : String} (hname : config.IsLogFile name) {id : RecordId}
    (hid : id ∈ idsAt (disk.children place name)) : name ∈ config.logNames disk place := by
  obtain ⟨line, hline, -⟩ := List.mem_filterMap.mp hid
  exact mem_logNames_of_mem_linesAt hname hline

/-- The numbers read from all files are those that stand in some file. -/
theorem mem_ids_iff {names : List String}
    (hnames : ∀ name, name ∈ names ↔ name ∈ config.logNames disk place) {id : RecordId} :
    id ∈ (names.flatMap fun name => linesAt (disk.children place name)).filterMap Line.recordId? ↔
      config.Holds (disk.children place) id := by
  rw [List.filterMap_flatMap, List.mem_flatMap]
  constructor
  · rintro ⟨name, hname, hid⟩
    exact ⟨name, (mem_logNames.mp ((hnames name).mp hname)).2, hid⟩
  · rintro ⟨name, hname, hid⟩
    exact ⟨name, (hnames name).mpr (mem_logNames_of_mem_idsAt hname hid), hid⟩

/-- No file of the log is listed twice. -/
theorem nodup_logNames (hs : StandsAt config.directory place disk) :
    (config.logNames disk place).Nodup := by
  refine ((List.mergeSort_perm _ _).map _).nodup_iff.mpr ?_
  rw [List.map_filterMap]
  refine hs.distinct.filterMap fun name other found hname hother => ?_
  simp only [Option.map_map, Option.mem_def, Option.map_eq_some_iff, Function.comp_apply]
    at hname hother
  obtain ⟨-, -, rfl⟩ := hname
  obtain ⟨-, -, rfl⟩ := hother
  rfl

/-- No number comes twice on the lines of all files, just if none does on each and no
two files have one. -/
theorem nodup_ids_iff (hs : StandsAt config.directory place disk) :
    (((config.logNames disk place).reverse.flatMap fun name =>
        linesAt (disk.children place name)).filterMap Line.recordId?).Nodup ↔
      (∀ name, config.IsLogFile name → (idsAt (disk.children place name)).Nodup) ∧
        ∀ name other id, config.IsLogFile name → config.IsLogFile other →
          id ∈ idsAt (disk.children place name) → id ∈ idsAt (disk.children place other) →
          name = other := by
  rw [List.filterMap_flatMap, List.nodup_flatMap]
  simp only [List.mem_reverse]
  constructor
  · rintro ⟨honce, hapart⟩
    refine ⟨fun name hname => ?_, fun name other id hname hother hid hid' => ?_⟩
    · by_cases hm : name ∈ config.logNames disk place
      · exact honce name hm
      · have hnil : idsAt (disk.children place name) = [] := by
          by_contra hne
          obtain ⟨id, hid⟩ := List.exists_mem_of_ne_nil _ hne
          exact hm (mem_logNames_of_mem_idsAt hname hid)
        rw [hnil]
        exact List.nodup_nil
    · by_contra hne
      have hm := List.mem_reverse.mpr (mem_logNames_of_mem_idsAt hname hid)
      have hm' := List.mem_reverse.mpr (mem_logNames_of_mem_idsAt hother hid')
      have : Std.Symm (Function.onFun List.Disjoint fun name =>
          (linesAt (disk.children place name)).filterMap Line.recordId?) :=
        ⟨fun _ _ hd id hid hid' => hd hid' hid⟩
      exact hapart.forall hm hm' hne hid hid'
  · rintro ⟨honce, hapart⟩
    refine ⟨fun name hname => honce name (mem_logNames.mp hname).2, ?_⟩
    have hnodup := List.nodup_reverse.mpr (nodup_logNames hs)
    refine hnodup.imp_of_mem fun {a b} ha hb hne id hid hid' => ?_
    rw [List.mem_reverse, mem_logNames] at ha hb
    exact hne (hapart a b id ha.2 hb.2 hid hid')

end StoreConfig

end EventLog
