import EventLog.Proofs.Store.Deletion
import EventLog.Proofs.Time.Reader

/-!
# EventLog.Proofs.Store.Readers

What the two readers of a line have in common, and what that means for a log.

A log is listed by the reader of whole lines, and counted, searched and numbered by
the one that only looks for the number.

* `recordId?_of_ofLine?`: what the first reads, the second finds the number of;
* `linesOn`: the lines of a file as the disk has them, whatever else stands there;
* `run_deleteFrom_cases`: how a search through files that can be read ends;
* `readers_agree`: listed records are counted, can be deleted, and are behind the
  counter of a log that is opened.
-/

namespace EventLog

open Disk (StandsAt)
open Step

namespace Line

/-- A number is found behind a time, wherever a comma follows it. -/
theorem recordId?_append_numeral {time number : List Char} {n : Nat} (hs : ' ' ∉ time)
    (hc : ',' ∉ time) (hne : time ≠ []) (hcomma : ',' ∉ number)
    (hnumber : Text.numeral? 10 65536 number = some n) (rest : List Char) :
    recordId? (time ++ ' ' :: (number ++ ',' :: rest)) = some (RecordId.ofNat n) := by
  have hsome : (Text.numeral? 10 65536 number).isSome := by rw [hnumber]; rfl
  have hblank : ' ' ∉ number := StoreConfig.not_mem_of_numeral? hsome (by decide) (by decide)
  have hwords := words_append_sep (.inl rfl) time (number ++ ',' :: rest)
  rw [words_append_sep (.inr rfl), words_of_not_mem hs hc hne,
    words_of_not_mem hblank hcomma (StoreConfig.ne_nil_of_numeral? hsome)] at hwords
  rw [recordId?_of_words hwords, hnumber]
  rfl

/-- **The number of a line that is read whole is found.** -/
theorem recordId?_of_ofLine? {line : List Char} {e : Entry} (h : Entry.ofLine? line = .ok e) :
    recordId? line = some e.id := by
  unfold Entry.ofLine? at h
  split at h
  · cases h
  · next time rest hcut =>
    split at h
    · next number recordType data generator sensor direction hfields =>
      obtain ⟨t, ht, h⟩ := bind_eq_ok.mp h
      obtain ⟨n, hn, h⟩ := bind_eq_ok.mp h
      obtain ⟨_, -, h⟩ := bind_eq_ok.mp h
      have hid : e.id = RecordId.ofNat n := by
        dsimp only at h
        split at h
        · split at h <;>
          · obtain ⟨_, -, h⟩ := bind_eq_ok.mp h
            obtain ⟨_, -, h⟩ := bind_eq_ok.mp h
            obtain ⟨_, -, h⟩ := bind_eq_ok.mp h
            cases h
            rfl
        · cases h
      -- The time has no comma, and the number neither comma nor blank.
      obtain ⟨rfl, hblank⟩ := Text.eq_append_of_cutOnce? hcut
      have ht : Timestamp.ofText? time = some t := of_field ht
      have hrest := Text.joined_fields ',' rest
      rw [hfields] at hrest
      have hmem : number ∈ Text.fields ',' rest := by simp [hfields]
      have hcomma : ',' ∉ number := Text.not_mem_of_mem_fields hmem
      rw [← hrest, hid]
      exact recordId?_append_numeral hblank (Timestamp.not_mem_of_ofText? ht (by decide))
        (Timestamp.ne_nil_of_ofText? ht) hcomma (of_field hn) _
    · cases h
where
  of_field {α : Type} {name : String} {value : List Char} {a? : Option α} {a : α}
      (h : Entry.field name value a? = .ok a) : a? = some a := by
    cases a? with
    | none => cases h
    | some b => exact congrArg some (Except.ok.inj h)

end Line

/-- As many lines have a number as are read whole, or more. -/
theorem length_entriesOf_le (lines : List (List Char)) :
    (entriesOf lines).length ≤ (lines.filter fun line => (Line.recordId? line).isSome).length := by
  rw [entriesOf, List.length_filterMap_eq_countP, ← List.countP_eq_length_filter]
  refine List.countP_mono_left fun line _ hline => ?_
  cases he : Entry.ofLine? line with
  | error e =>
    rw [he] at hline
    cases hline
  | ok e =>
    rw [Line.recordId?_of_ofLine? he]
    rfl

/-! ## Lines on a disk -/

/-- The stored lines of a file; none if it cannot be read. -/
def linesOn (disk : Disk) (file : Path) : List (List Char) :=
  match (readLines file).run disk with
  | (.ok lines, _) => lines
  | (.error _, _) => []

/-- Lines that were read are the lines of the file. -/
theorem linesOn_of_run {disk next : Disk} {file : Path} {lines : List (List Char)}
    (h : (readLines file).run disk = (.ok lines, next)) : linesOn disk file = lines := by
  rw [linesOn, h]

namespace StoreConfig

variable {config : StoreConfig} {disk next : Disk} {id : RecordId} {files : List Path}

/-- The lines of some files can be read. -/
def CanRead (disk : Disk) (files : List Path) : Prop :=
  ∀ file ∈ files, (readLines file).run disk = (.ok (linesOn disk file), disk)

/-- Reading all files leaves the disk as it was, and gives their lines one behind the other. -/
theorem of_run_linesIn {lines : List (List Char)} (h : (linesIn files).run disk = (.ok lines, next)) :
    next = disk ∧ CanRead disk files ∧ lines = files.flatMap (linesOn disk) := by
  obtain ⟨found, middle, hfound, hlines⟩ := run_bind_eq_ok.mp h
  cases hlines
  suffices hall : next = disk ∧ CanRead disk files ∧ found = files.map (linesOn disk) by
    rw [hall.2.2, List.flatMap_def]
    exact ⟨hall.1, hall.2.1, rfl⟩
  clear h
  induction files generalizing found with
  | nil =>
    cases hfound
    exact ⟨rfl, fun _ hm => absurd hm List.not_mem_nil, rfl⟩
  | cons file files ih =>
    rw [List.mapM_cons] at hfound
    obtain ⟨first, last, hfirst, hothers⟩ := run_bind_eq_ok.mp hfound
    have hread := run_at_eq_ok.mp hfirst
    obtain ⟨rfl, -⟩ := run_readLines_eq_ok.mp hread
    obtain ⟨others, last, hothers, hend⟩ := run_bind_eq_ok.mp hothers
    cases hend
    obtain ⟨hsame, hcan, rfl⟩ := ih others hothers
    have hlines := linesOn_of_run hread
    refine ⟨hsame, List.forall_mem_cons.mpr ⟨by rw [hlines, hread], hcan⟩, ?_⟩
    rw [List.map_cons, hlines]

/-- Looking for the files leaves the disk as it was. -/
theorem run_files_snd (config : StoreConfig) (disk : Disk) : (config.files.run disk).2 = disk := by
  rw [files, run_bind_of_ok (run_get disk)]
  cases disk.list config.directory with
  | ok names => rfl
  | error cause => cases cause <;> rfl

/-- **A search through files that can be read** ends with the first that holds the
record, or fails because that cannot be written anew. -/
theorem run_deleteFrom_cases (hread : CanRead disk files) {result : Except StoreError Bool}
    (h : (config.deleteFrom id files).run disk = (result, next)) :
    match result with
    | .ok true => True
    | .ok false => ∀ file ∈ files, ∀ line ∈ linesOn disk file, hasId id line = false
    | .error e => ∃ file ∈ files, ∃ lines,
        (config.replaceLines file lines).run disk = (.error e, next) := by
  induction files with
  | nil =>
    cases h
    exact fun _ hm => absurd hm List.not_mem_nil
  | cons file files ih =>
    obtain ⟨hfirst, hothers⟩ := List.forall_mem_cons.mp hread
    rw [deleteFrom, run_bind_of_ok (run_at_eq_ok.mpr hfirst)] at h
    cases hany : (linesOn disk file).any (hasId id) with
    | true =>
      simp only [hany, if_true] at h
      rcases hwrite : (config.replaceLines file
        ((linesOn disk file).filter fun line => !hasId id line)).run disk with ⟨e | _, after⟩
      · rw [run_bind_of_error hwrite] at h
        cases h
        exact ⟨file, List.mem_cons_self, _, hwrite⟩
      · rw [run_bind_of_ok hwrite] at h
        cases h
        trivial
    | false =>
      simp only [hany, Bool.false_eq_true, if_false] at h
      have hrest := ih hothers h
      rcases result with e | _ | _
      · obtain ⟨found, hfound, hwrite⟩ := hrest
        exact ⟨found, List.mem_cons_of_mem file hfound, hwrite⟩
      · refine List.forall_mem_cons.mpr ⟨fun line hline => ?_, hrest⟩
        simpa using List.any_eq_false.mp hany line hline
      · trivial

/-- The directory of a log lists each name once, all of them plain, and the draft of
every file of the log can be made. -/
def HasDrafts (config : StoreConfig) (disk : Disk) : Prop :=
  ∀ names, disk.list config.directory = .ok names →
    names.Nodup ∧ (∀ name ∈ names, IsFileName name) ∧
    ∀ name ∈ config.filesAmong names, ∀ bytes,
      ((Disk.create (config.directory.join (draftName name)) bytes).run disk).1 = .ok ()

/-- A deletion finds the record if a line of some file carries its id and all drafts can be made. -/
theorem exists_run_deleteFrom (hdrafts : config.HasDrafts disk) {names : List String}
    (hlist : disk.list config.directory = .ok names)
    (hread : CanRead disk ((config.filesAmong names).map config.directory.join))
    {name : String} (hname : name ∈ config.filesAmong names)
    {line : List Char} (hline : line ∈ linesOn disk (config.directory.join name))
    (hid : hasId id line = true) :
    ∃ next, (config.deleteFrom id ((config.filesAmong names).map config.directory.join)).run disk
      = (.ok true, next) := by
  obtain ⟨hdistinct, hplain, hmake⟩ := hdrafts names hlist
  obtain ⟨place, hs, hat⟩ := Disk.standsAt_of_list hlist hdistinct
  rcases hrun : (config.deleteFrom id ((config.filesAmong names).map config.directory.join)).run
    disk with ⟨result, next⟩
  have hcases := run_deleteFrom_cases hread hrun
  rcases result with e | _ | _
  · obtain ⟨file, hfile, lines, hwrite⟩ := hcases
    obtain ⟨other, hother, rfl⟩ := List.mem_map.mp hfile
    have hlog := mem_filesAmong.mp hother
    -- The file can be read, so that only its draft could fail.
    obtain ⟨-, text, hbytes, -⟩ := run_readLines_eq_ok.mp (hread _ hfile)
    obtain ⟨hsize, number, time, hnode⟩ :=
      (Disk.read_join_eq_ok hs (hplain other hlog.1)).mp hbytes
    rcases run_replaceLines hs (hplain other hlog.1) hlog.2 hsize hnode lines with
      ⟨cause, hcreate, -⟩ | ⟨_, _, hok, -⟩
    · have hmade := hmake other hother (bytesOf (textOfLines lines))
      rw [hcreate] at hmade
      cases hmade
    · rw [hwrite] at hok
      cases hok
  · have hnone := hcases _ (List.mem_map_of_mem hname) line hline
    rw [hid] at hnone
    cases hnone
  · exact ⟨next, rfl⟩

end StoreConfig

namespace Store

open StoreConfig

variable {store : Store} {disk next : Disk}

/-- What a log lists, and that it has a directory if it lists anything. -/
theorem of_run_entries {es : List Entry} (h : store.entries.run disk = (.ok es, next)) :
    (∃ files, store.config.files.run disk = (.ok files, disk) ∧ CanRead disk files ∧
      es = entriesOf (files.reverse.flatMap (linesOn disk))) ∧
    (es ≠ [] → ∃ names, disk.list store.config.directory = .ok names) := by
  obtain ⟨files, middle, hfiles, hrest⟩ := run_bind_eq_ok.mp h
  obtain rfl : middle = disk := by
    have hsame := run_files_snd store.config disk
    rwa [hfiles] at hsame
  obtain ⟨lines, last, hlines, hlast⟩ := run_bind_eq_ok.mp hrest
  obtain ⟨rfl, hread, rfl⟩ := of_run_linesIn hlines
  cases hlast
  refine ⟨⟨files, hfiles, fun file hfile => hread file (List.mem_reverse.mpr hfile), rfl⟩,
    fun hne => ?_⟩
  cases hlist : next.list store.config.directory with
  | ok names => exact ⟨names, rfl⟩
  | error cause =>
    rw [run_files_of_error hlist] at hfiles
    split at hfiles
    · cases hfiles
      exact absurd rfl hne
    · cases hfiles

/-- The line of a listed record stands in one of the files, and its number is found there. -/
theorem exists_line_of_mem {files : List Path} {e : Entry}
    (he : e ∈ entriesOf (files.reverse.flatMap (linesOn disk))) :
    ∃ file ∈ files, ∃ line ∈ linesOn disk file, Line.recordId? line = some e.id := by
  obtain ⟨line, hline, hparse⟩ := List.mem_filterMap.mp he
  obtain ⟨file, hfile, hline⟩ := List.mem_flatMap.mp hline
  refine ⟨file, List.mem_reverse.mp hfile, line, hline, ?_⟩
  cases hread : Entry.ofLine? line with
  | error error =>
    rw [hread] at hparse
    cases hparse
  | ok found =>
    rw [hread] at hparse
    cases hparse
    exact Line.recordId?_of_ofLine? hread

/-- What a log lists is no more than what it counts. -/
theorem length_le_of_info {files : List Path}
    (hfiles : store.config.files.run disk = (.ok files, disk)) {info : StoreInfo}
    (h : store.info.run disk = (.ok info, next)) :
    (entriesOf (files.reverse.flatMap (linesOn disk))).length ≤ info.entries := by
  rw [Store.info, run_bind_of_ok hfiles] at h
  obtain ⟨lines, middle, hlines, h⟩ := run_bind_eq_ok.mp h
  obtain ⟨_, _, -, h⟩ := run_bind_eq_ok.mp h
  obtain ⟨_, _, -, h⟩ := run_bind_eq_ok.mp h
  cases h
  obtain ⟨-, -, rfl⟩ := of_run_linesIn hlines
  have hperm : (files.reverse.flatMap (linesOn disk)).Perm (files.flatMap (linesOn disk)) :=
    (List.reverse_perm files).flatMap_right _
  rw [← (hperm.filter _).length_eq]
  exact length_entriesOf_le _

section Delete

variable {files : List Path} {id : RecordId} {file : Path} {line : List Char}

/-- A record is not said to be missing if a line has its number. -/
theorem delete_ne_false (hfiles : store.config.files.run disk = (.ok files, disk))
    (hread : CanRead disk files) (hfile : file ∈ files) (hline : line ∈ linesOn disk file)
    (hid : hasId id line = true) : (store.delete id disk).1 ≠ .ok false := by
  intro hfalse
  rw [Store.delete, run_bind_of_ok hfiles] at hfalse
  rcases hrun : (store.config.deleteFrom id files).run disk with ⟨result, last⟩
  rw [hrun] at hfalse
  rcases result with error | _ | _
  · cases hfalse
  · have hnone := run_deleteFrom_cases hread hrun file hfile line hline
    rw [hid] at hnone
    cases hnone
  · cases hfalse

/-- And it is deleted, if the drafts can be made. -/
theorem delete_eq_true (hdrafts : store.config.HasDrafts disk)
    (hfiles : store.config.files.run disk = (.ok files, disk)) (hread : CanRead disk files)
    (hfile : file ∈ files) (hline : line ∈ linesOn disk file) (hid : hasId id line = true)
    {names : List String} (hlist : disk.list store.config.directory = .ok names) :
    (store.delete id disk).1 = .ok true := by
  obtain rfl : (store.config.filesAmong names).map store.config.directory.join = files := by
    rw [StoreConfig.files, run_bind_of_ok (run_get disk), hlist] at hfiles
    cases hfiles
    rfl
  obtain ⟨name, hname, rfl⟩ := List.mem_map.mp hfile
  obtain ⟨last, hrun⟩ := exists_run_deleteFrom hdrafts hlist hread hname hline hid
  rw [Store.delete, run_bind_of_ok hfiles, hrun]

end Delete

/-- Opening a log whose directory is there numbers on from all lines that can be read. -/
theorem run_open_of_list {config : StoreConfig} {names : List String}
    (hlist : disk.list config.directory = .ok names) {files : List Path}
    (hfiles : config.files.run disk = (.ok files, disk)) :
    (Store.open config).run disk = (.ok ⟨config, Allocator.resume
      ((files.flatMap (linesOn disk)).filterMap Line.recordId?)⟩, disk) := by
  obtain ⟨place, hlocate, hd, -⟩ := Disk.isDirectoryAt_of_list hlist
  rw [Store.open, run_bind_of_ok (run_at_eq_ok.mpr (Disk.run_makeDirectories_of_locate hlocate hd)),
    run_bind_of_ok hfiles, run_bind_of_ok (run_get disk)]
  rfl

end Store

/-- The counter of an allocator that resumes has passed every valid number. -/
theorem Allocator.exists_lastIssued?_resume {present : List RecordId} {id : RecordId}
    (hid : id ∈ present) (hvalid : id.IsValid) :
    ∃ last, (resume present).lastIssued? = some last ∧ id.toNat ≤ last.toNat := by
  have hle : id.rank ≤ (highest present).rank := rank_le_highest hid
  rw [RecordId.rank_of_isValid hvalid] at hle
  have hfirst := ((RecordId.isValid_iff id).mp hvalid).1
  have hlast : (highest present).IsValid := by
    by_contra hnot
    rw [RecordId.rank, if_neg hnot] at hle
    omega
  rw [RecordId.rank_of_isValid hlast] at hle
  exact ⟨highest present, if_pos hlast, hle⟩

open StoreConfig in
/-- **The two readers agree.**  A line that is read whole has the number that is found
on it.  So whatever the files of a log contain, the records that it lists are counted;
a listed record is never said to be missing when it is deleted, and is deleted unless a
draft cannot be made; and the log can be opened, with a counter that has passed every
valid number that is listed. -/
theorem readers_agree :
    (∀ line e, Entry.ofLine? line = .ok e → Line.recordId? line = some e.id) ∧
    ∀ (store : Store) (disk next : Disk) (es : List Entry),
      store.entries.run disk = (.ok es, next) →
      (∀ info last, store.info.run disk = (.ok info, last) → es.length ≤ info.entries) ∧
      ∀ e ∈ es,
        (store.delete e.id disk).1 ≠ .ok false ∧
        (store.config.HasDrafts disk → (store.delete e.id disk).1 = .ok true) ∧
        ∃ opened, (Store.open store.config).run disk = (.ok opened, disk) ∧
          (e.id.IsValid → ∃ last, opened.allocator.lastIssued? = some last ∧
            e.id.toNat ≤ last.toNat) := by
  refine ⟨fun line e => Line.recordId?_of_ofLine?, fun store disk next es h => ?_⟩
  obtain ⟨⟨files, hfiles, hread, rfl⟩, hdirectory⟩ := Store.of_run_entries h
  refine ⟨fun info last => Store.length_le_of_info hfiles, fun e he => ?_⟩
  obtain ⟨names, hlist⟩ := hdirectory (List.ne_nil_of_mem he)
  obtain ⟨file, hfile, line, hline, hid⟩ := Store.exists_line_of_mem he
  have hhas : hasId e.id line = true := by simp [hasId, hid]
  have hpresent : e.id ∈ (files.flatMap (linesOn disk)).filterMap Line.recordId? :=
    List.mem_filterMap.mpr ⟨line, List.mem_flatMap.mpr ⟨file, hfile, hline⟩, hid⟩
  exact ⟨Store.delete_ne_false hfiles hread hfile hline hhas,
    fun hdrafts => Store.delete_eq_true hdrafts hfiles hread hfile hline hhas hlist,
    _, Store.run_open_of_list hlist hfiles, Allocator.exists_lastIssued?_resume hpresent⟩

open StoreConfig in
/-- A number with a sign and zeros, a zone, and blanks in a path, behind a line that has
a number and is no record. -/
theorem readers_agree_on_odd_lines :
    let store : Store := ⟨⟨⟨"/log"⟩, "sel", ⟨"/erased"⟩, 0, 3⟩, .fresh⟩
    let line := "1970-01-02t00:00:00.5+01:00 +007,E0,,,a b,".toList
    let disk : Disk := ⟨.epoch, 1, [([], .directory .epoch), (["log"], .directory .epoch),
      (["log", "sel"], .file 0 (bytesOf (textOfLines ["no 9 record".toList, line])) .epoch)]⟩
    ∃ e info, Entry.ofLine? line = .ok e ∧ Line.recordId? line = some e.id ∧
      (store.entries.run disk).1 = .ok [e] ∧ (store.info.run disk).1 = .ok info ∧
      [e].length ≤ info.entries ∧ (store.delete e.id disk).1 = .ok true ∧
      ∃ opened last, (Store.open store.config).run disk = (.ok opened, disk) ∧
        opened.allocator.lastIssued? = some last ∧ e.id.toNat ≤ last.toNat := by
  intro store line disk
  let e : Entry := ⟨⟨82800, 500000000, by decide, by decide⟩, ⟨7⟩, 0xE0, [], none, some "a b", none⟩
  have hline : Entry.ofLine? line = .ok e := by decide +kernel
  have hentries : (store.entries.run disk).1 = .ok [e] := by decide +kernel
  have hinfo : (store.info.run disk).1 = .ok ⟨2, some .epoch, none⟩ := by decide +kernel
  have hlist : disk.list store.config.directory = .ok ["sel"] := by decide +kernel
  have hs : StandsAt store.config.directory ["log"] disk :=
    ⟨by decide +kernel, ⟨.epoch, by simp [disk, Disk.get?, List.lookup_cons]⟩, by decide +kernel⟩
  have hdrafts : store.config.HasDrafts disk := by
    intro names hnames
    obtain rfl : ["sel"] = names := Except.ok.inj (hlist.symm.trans hnames)
    have hfiles : store.config.filesAmong ["sel"] = ["sel"] := by decide +kernel
    have hnone : disk.children ["log"] (draftName "sel") = none := by
      simp [disk, Disk.children, Disk.get?, List.lookup_cons, draftName]
    refine ⟨by decide, by decide, fun name hname bytes => ?_⟩
    rw [hfiles, List.mem_singleton] at hname
    rw [hname, Disk.create, Disk.run_write_join hs (by decide), if_neg (by decide), hnone]
  rcases hrun : store.entries.run disk with ⟨found, next⟩
  obtain rfl : found = .ok [e] := by rwa [hrun] at hentries
  rcases hinform : store.info.run disk with ⟨told, last⟩
  obtain rfl : told = .ok ⟨2, some .epoch, none⟩ := by rwa [hinform] at hinfo
  obtain ⟨hreaders, hlog⟩ := readers_agree
  obtain ⟨hcounted, hlisted⟩ := hlog store disk next [e] hrun
  obtain ⟨-, hdelete, opened, hopen, hlast⟩ := hlisted e List.mem_cons_self
  obtain ⟨last, hissued, hle⟩ := hlast (by decide)
  exact ⟨e, _, hline, hreaders line e hline, rfl, rfl, hcounted _ _ hinform, hdelete hdrafts,
    opened, last, hopen, hissued, hle⟩

end EventLog
