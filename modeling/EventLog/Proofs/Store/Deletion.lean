import EventLog.Proofs.Allocator
import EventLog.Proofs.Store.Removal

/-!
# EventLog.Proofs.Store.Deletion

Deleting a record changes the one file that holds it, and nothing else.

* `run_replaceLines`: a file gets other lines and keeps its time, or nothing changes
  because its draft cannot be made;
* `of_run_deleteFrom`: the files are read one behind the other up to the first that
  holds the record;
* `delete_is_exact`: what that leaves of the log, whatever its files contain (a carriage
  return at the end of a line is lost, `delete_drops_return`).
-/

namespace EventLog

open Disk (StandsAt Turns Table)
open Step

namespace Disk

variable {dir : Path} {place : Place} {disk : Disk} {name : String}

/-- The path of a file in a directory leads to it. -/
theorem stat_join_of_file (hs : StandsAt dir place disk) (hn : IsFileName name)
    (hsize : name.utf8ByteSize ≤ nameLimit) {node : Node}
    (h : disk.children place name = some node) : disk.stat (dir.join name) = .ok node := by
  rw [stat_join hs hn, if_neg (by omega), h]

/-- A file that is there can take the place of another one. -/
theorem exists_run_rename (hs : StandsAt dir place disk) {old new : String} (ho : IsFileName old)
    (hn : IsFileName new) (hne : old ≠ new) (hosize : old.utf8ByteSize ≤ nameLimit)
    (hnsize : new.utf8ByteSize ≤ nameLimit) {number number' : Nat} {bytes bytes' : ByteArray}
    {time time' : Timestamp} (hold : disk.children place old = some (.file number bytes time))
    (hnew : disk.children place new = some (.file number' bytes' time')) :
    ∃ next, (rename (dir.join old) (dir.join new)).run disk = (.ok (), next) := by
  obtain ⟨_, hd⟩ := hs.isDirectory
  have hfind := run_look (·.find (dir.join old)) disk
  rw [find_join_of_children hs ho hosize hold] at hfind
  have hlocate := run_look (·.locate (dir.join new)) disk
  rw [locate_join hs.located hs.isDirectory hn, if_neg (by omega)] at hlocate
  rw [children] at hnew
  rw [rename, run_bind_of_ok (run_get disk), run_bind_of_ok hfind, run_bind_of_ok hlocate,
    if_neg (concat_inj.not.mpr hne)]
  simp only [Node.isDirectory, List.dropLast_concat, hd, hnew, Bool.false_and, Bool.false_eq_true,
    if_false]
  exact ⟨_, rfl⟩

/-- The time of a file that is there can be set. -/
theorem exists_run_setModified (hs : StandsAt dir place disk) (hn : IsFileName name)
    (hsize : name.utf8ByteSize ≤ nameLimit) {number : Nat} {bytes : ByteArray} {old : Timestamp}
    (h : disk.children place name = some (.file number bytes old)) (time : Timestamp) :
    ∃ next, (setModified (dir.join name) time).run disk = (.ok (), next) := by
  have hfind := run_look (·.find (dir.join name)) disk
  rw [find_join_of_children hs hn hsize h] at hfind
  rw [setModified, run_bind_of_ok (run_get disk), run_bind_of_ok hfind]
  exact ⟨_, rfl⟩

/-- A file that cannot be written stays as it is. -/
theorem eq_of_run_write_error (hs : StandsAt dir place disk) (hn : IsFileName name)
    {update : ByteArray → ByteArray} {cause : SystemError} {next : Disk}
    (h : (write (dir.join name) update).run disk = (.error cause, next)) : next = disk := by
  rw [run_write_join hs hn] at h
  split at h
  · cases h
    rfl
  · split at h <;> cases h <;> rfl

end Disk

/-- A file can be read, and none of its lines has a number. -/
def IsWithout (id : RecordId) (disk : Disk) (file : Path) : Prop :=
  ∃ text, disk.read file = .ok (bytesOf text) ∧ ∀ line ∈ storedLines text, hasId id line = false

/-- Reading the lines of a file changes nothing. -/
theorem run_readLines_snd (path : Path) (disk : Disk) : ((readLines path).run disk).2 = disk := by
  rw [readLines, run_bind, Disk.run_look]
  cases disk.readText path <;> rfl

namespace StoreConfig

variable {config : StoreConfig} {place : Place} {disk next : Disk} {name : String}

/-- A directory that cannot be listed has no files of the log, if it is missing. -/
theorem run_files_of_error {cause : SystemError} (h : disk.list config.directory = .error cause) :
    config.files.run disk =
      (if cause = .noEntry then .ok [] else .error ⟨config.directory, cause⟩, disk) := by
  rw [files, run_bind_of_ok (run_get disk), h]
  cases cause <;> rfl

/-- The table of a directory behind the deletion of a record from one of its files: the
file is another one with the other lines and the old time, and there is no draft of it. -/
def deletedFrom (table : Table) (name : String) (number : Nat) (lines : List (List Char))
    (time : Timestamp) : Table :=
  Function.update (Function.update table (draftName name) none) name
    (some (.file number (bytesOf (textOfLines lines)) time))

/-- The path of the file leads to the other lines. -/
theorem stat_of_deletedFrom (hs : StandsAt config.directory place disk) (hname : IsFileName name)
    (hsize : name.utf8ByteSize ≤ Disk.nameLimit) {number : Nat} {lines : List (List Char)}
    {time : Timestamp}
    (h : Turns place disk next (deletedFrom (disk.children place) name number lines time)) :
    next.stat (config.directory.join name)
      = .ok (.file number (bytesOf (textOfLines lines)) time) := by
  refine Disk.stat_join_of_file (hs.turn h) hname hsize ?_
  rw [h.children, deletedFrom, Function.update_self]

/-- The paths of other files lead where they did. -/
theorem stat_of_deletedFrom_of_ne (hs : StandsAt config.directory place disk) {number : Nat}
    {lines : List (List Char)} {time : Timestamp}
    (h : Turns place disk next (deletedFrom (disk.children place) name number lines time))
    {other : String} (hother : IsFileName other) (hname : other ≠ name)
    (hdraft : other ≠ draftName name) :
    next.stat (config.directory.join other) = disk.stat (config.directory.join other) := by
  rw [Disk.stat_join (hs.turn h) hother, Disk.stat_join hs hother, h.children, deletedFrom,
    Function.update_of_ne hname, Function.update_of_ne hdraft]

/-- The directory lists the files that it listed, but for the draft. -/
theorem mem_namesAt_of_deletedFrom {number : Nat} {lines : List (List Char)} {time : Timestamp}
    (h : Turns place disk next (deletedFrom (disk.children place) name number lines time))
    (hname : (disk.children place name).isSome) (hdraft : draftName name ≠ name) {other : String} :
    other ∈ next.namesAt place ↔ other ∈ disk.namesAt place ∧ other ≠ draftName name := by
  rw [Disk.mem_namesAt, Disk.mem_namesAt, h.children, deletedFrom]
  by_cases hother : other = name
  · subst hother
    simp [hname, hdraft.symm]
  · rw [Function.update_of_ne hother]
    by_cases hod : other = draftName name <;> simp [hod]

/-- **A file that is written anew** keeps its time, or stays as it is because its draft
cannot be made. -/
theorem run_replaceLines (hs : StandsAt config.directory place disk) (hname : IsFileName name)
    (hfile : config.IsLogFile name) (hsize : name.utf8ByteSize ≤ Disk.nameLimit) {number : Nat}
    {bytes : ByteArray} {time : Timestamp}
    (h : disk.children place name = some (.file number bytes time)) (lines : List (List Char)) :
    (∃ cause, (Disk.create (config.directory.join (draftName name))
        (bytesOf (textOfLines lines))).run disk = (.error cause, disk) ∧
      (config.replaceLines (config.directory.join name) lines).run disk =
        (.error ⟨config.directory.join (draftName name), cause⟩, disk)) ∨
      ∃ number' next,
        (config.replaceLines (config.directory.join name) lines).run disk = (.ok (), next) ∧
        Turns place disk next (deletedFrom (disk.children place) name number' lines time) := by
  have hdraft := isFileName_draftName hname
  have hne : draftName name ≠ name := fun e => not_isLogFile_draftName hfile (by rwa [e])
  have htime : disk.modified (config.directory.join name) = .ok time := by
    rw [Disk.modified, Disk.stat_join_of_file hs hname hsize h]
    rfl
  have hlook := Disk.run_look (·.modified (config.directory.join name)) disk
  rw [htime] at hlook
  rw [replaceLines, draftOf_join hs.text_ne hname, run_bind_of_ok (run_at_eq_ok.mpr hlook)]
  rcases hcreate : (Disk.create (config.directory.join (draftName name))
    (bytesOf (textOfLines lines))).run disk with ⟨cause | _, made⟩
  · obtain rfl := Disk.eq_of_run_write_error hs hdraft hcreate
    exact .inl ⟨cause, rfl, run_bind_of_error (by rw [run_at, hcreate]) _⟩
  · -- Once the draft is there, nothing can go wrong.
    have hdsize := (Disk.write_ok hs hdraft hcreate).1
    obtain ⟨number', hmade⟩ := Disk.create_ok hs hdraft hcreate
    have hs₁ := hs.turn hmade
    have hold : made.children place (draftName name)
        = some (.file number' (bytesOf (textOfLines lines)) disk.clock) := by
      rw [hmade.children, Function.update_self]
    have hnew : made.children place name = some (.file number bytes time) := by
      rw [hmade.children, Function.update_of_ne hne.symm, h]
    obtain ⟨moved, hrename⟩ :=
      Disk.exists_run_rename hs₁ hdraft hname hne hdsize hsize hold hnew
    obtain ⟨-, node, hnode, hmoved⟩ := Disk.rename_ok hs₁ hdraft hname hne
      (fun node hnode => by rw [hold, Option.some.injEq] at hnode; exact hnode ▸ rfl) hrename
    rw [hold, Option.some.injEq] at hnode
    subst hnode
    have hs₂ := hs₁.turn hmoved
    have hthere : moved.children place name
        = some (.file number' (bytesOf (textOfLines lines)) disk.clock) := by
      rw [hmoved.children, Function.update_self]
    obtain ⟨next, hset⟩ := Disk.exists_run_setModified hs₂ hname hsize hthere time
    obtain ⟨number'', bytes', old, hfound, hlast⟩ := Disk.setModified_ok hs₂ hname hset
    rw [hthere, Option.some.injEq, Node.file.injEq] at hfound
    obtain ⟨rfl, rfl, -⟩ := hfound
    rw [hmoved.children, hmade.children, Function.update_idem, Function.update_idem] at hlast
    refine .inr ⟨number', next, ?_, (hmade.trans hmoved).trans hlast⟩
    rw [run_bind_of_ok (run_at_eq_ok.mpr hcreate), run_bind_of_ok (run_at_eq_ok.mpr hrename)]
    exact run_at_eq_ok.mpr hset

/-- **Deleting from some files** reads them one behind the other, and writes the first
anew that holds the record; in every other case nothing changes. -/
theorem of_run_deleteFrom (hs : StandsAt config.directory place disk) {id : RecordId}
    {names : List String} (hnames : ∀ name ∈ names, IsFileName name ∧ config.IsLogFile name)
    {result : Except StoreError Bool}
    (h : (config.deleteFrom id (names.map config.directory.join)).run disk = (result, next)) :
    match result with
    | .error _ => next = disk
    | .ok false => next = disk ∧ ∀ name ∈ names, IsWithout id disk (config.directory.join name)
    | .ok true => ∃ newer name older number number' text time, names = newer ++ name :: older ∧
        (∀ other ∈ newer, IsWithout id disk (config.directory.join other)) ∧
        name.utf8ByteSize ≤ Disk.nameLimit ∧
        disk.children place name = some (.file number (bytesOf text) time) ∧
        (∃ line ∈ storedLines text, hasId id line = true) ∧
        Turns place disk next (deletedFrom (disk.children place) name number'
          ((storedLines text).filter fun line => !hasId id line) time) := by
  induction names with
  | nil =>
    cases h
    exact ⟨rfl, fun _ hm => absurd hm List.not_mem_nil⟩
  | cons name names ih =>
    obtain ⟨hname, hfile⟩ := hnames name List.mem_cons_self
    rw [List.map_cons, deleteFrom, run_bind, run_at] at h
    rcases hread : (readLines (config.directory.join name)).run disk with ⟨cause | lines, same⟩ <;>
      rw [hread] at h
    · cases h
      have hsame := run_readLines_snd (config.directory.join name) disk
      rwa [hread] at hsame
    · obtain ⟨hsame, text, hbytes, hlines⟩ := run_readLines_eq_ok.mp hread
      subst hsame hlines
      obtain ⟨hsize, number, time, hnode⟩ := (Disk.read_join_eq_ok hs hname).mp hbytes
      cases hany : (storedLines text).any (hasId id) with
      | true =>
        simp only [hany, if_true] at h
        rcases run_replaceLines hs hname hfile hsize hnode
          ((storedLines text).filter fun line => !hasId id line) with
          ⟨cause, -, hrun⟩ | ⟨number', after, hrun, hturns⟩
        · rw [run_bind_of_error hrun] at h
          cases h
          rfl
        · rw [run_bind_of_ok hrun] at h
          cases h
          exact ⟨[], name, names, number, number', text, time, rfl, by simp, hsize, hnode,
            List.any_eq_true.mp hany, hturns⟩
      | false =>
        have hwithout : IsWithout id same (config.directory.join name) :=
          ⟨text, hbytes, fun line hline => by
            simpa using List.any_eq_false.mp hany line hline⟩
        simp only [hany] at h
        have hrest := ih (fun other hm => hnames other (List.mem_cons_of_mem name hm)) h
        rcases result with e | _ | _
        · exact hrest
        · exact ⟨hrest.1, List.forall_mem_cons.mpr ⟨hwithout, hrest.2⟩⟩
        · obtain ⟨newer, found, older, number, number', text, time, rfl, hnewer, hfound⟩ := hrest
          exact ⟨name :: newer, found, older, number, number', text, time, rfl,
            List.forall_mem_cons.mpr ⟨hwithout, hnewer⟩, hfound⟩

end StoreConfig

namespace Store

open StoreConfig

/-- **Deleting a record removes its lines, and changes no other file**, whatever the
files of the log contain; a line is meant as it is read, without its end.  If it returns
true, the newest file with a line of the number has its other lines that are not blank,
each with a line feed behind it, and its old time.  So they are read back as they were,
but for a carriage return at the end of a line: the line feed takes it along
(`delete_drops_return`).  Every other file of the directory is what it was, no draft is
left, and the number is free.  It returns false only if all files can be read and none has
such a line.  In that case, and if it fails, the disk and the log are what they were. -/
theorem delete_is_exact {store after : Store} {id : RecordId} (hid : id.IsValid) {disk next : Disk}
    (hnames : ∀ names, disk.list store.config.directory = .ok names →
      names.Nodup ∧ ∀ name ∈ names, IsFileName name)
    {result : Except StoreError Bool} (h : store.delete id disk = (result, after, next)) :
    let file := store.config.directory.join
    match result with
    | .error _ => after = store ∧ next = disk
    | .ok false => after = store ∧ next = disk ∧
        ∀ names, disk.list store.config.directory = .ok names →
          ∀ name ∈ store.config.filesAmong names, IsWithout id disk (file name)
    | .ok true => ∃ names newer name older number number' text time,
        disk.list store.config.directory = .ok names ∧
        store.config.filesAmong names = newer ++ name :: older ∧
        (∀ other ∈ newer, IsWithout id disk (file other)) ∧
        disk.stat (file name) = .ok (.file number (bytesOf text) time) ∧
        (∃ line ∈ storedLines text, hasId id line = true) ∧
        next.stat (file name) = .ok (.file number' (bytesOf (textOfLines
          ((storedLines text).filter fun line => !hasId id line))) time) ∧
        (readLines (file name)).run next = (.ok
          (((storedLines text).filter fun line => !hasId id line).map linesOf.stripReturn), next) ∧
        (∀ other, IsFileName other → other ≠ name → other ≠ draftName name →
          next.stat (file other) = disk.stat (file other)) ∧
        draftName name ∉ store.config.filesAmong names ∧
        (∃ left, next.list store.config.directory = .ok left ∧
          ∀ other, other ∈ left ↔ other ∈ names ∧ other ≠ draftName name) ∧
        after = { store with allocator := { store.allocator with
          free := if id ∈ store.allocator.free then store.allocator.free
            else store.allocator.free ++ [id] } } := by
  intro file
  rw [Store.delete] at h
  cases hlist : disk.list store.config.directory with
  | error cause =>
    have hfiles := run_files_of_error hlist
    by_cases hcause : cause = .noEntry
    · rw [if_pos hcause] at hfiles
      simp only [run_bind_of_ok hfiles] at h
      cases h
      exact ⟨rfl, rfl, fun _ hnone => by cases hnone⟩
    · rw [if_neg hcause] at hfiles
      simp only [run_bind_of_error hfiles] at h
      cases h
      exact ⟨rfl, rfl⟩
  | ok names =>
    obtain ⟨hdistinct, hplain⟩ := hnames names hlist
    obtain ⟨place, hs, hat⟩ := Disk.standsAt_of_list hlist hdistinct
    have hfiles := run_files hs
    rw [logNames, hat] at hfiles
    have hlog (name : String) (hm : name ∈ store.config.filesAmong names) :
        IsFileName name ∧ store.config.IsLogFile name :=
      ⟨hplain name (mem_filesAmong.mp hm).1, (mem_filesAmong.mp hm).2⟩
    rcases hrun : (store.config.deleteFrom id ((store.config.filesAmong names).map file)).run disk
      with ⟨found, last⟩
    have hcases := of_run_deleteFrom hs hlog hrun
    simp only [run_bind_of_ok hfiles, file, hrun] at h
    rcases found with e | _ | _
    · cases h
      exact ⟨rfl, hcases⟩
    · cases h
      refine ⟨rfl, hcases.1, fun other hother => ?_⟩
      cases hother
      exact hcases.2
    · cases h
      obtain ⟨newer, name, older, number, number', text, time, hsplit, hnewer, hsize, hnode,
        hfound, hturns⟩ := hcases
      have hmem : name ∈ store.config.filesAmong names := by simp [hsplit]
      obtain ⟨hname, hfile⟩ := hlog name hmem
      have hdraft := not_isLogFile_draftName hfile
      have hne : draftName name ≠ name := fun e => hdraft (by rwa [e])
      have hwritten := stat_of_deletedFrom hs hname hsize hturns
      refine ⟨names, newer, name, older, number, number', text, time, rfl, hsplit, hnewer,
        Disk.stat_join_of_file hs hname hsize hnode, hfound, hwritten, ?_,
        fun other hother hon hod => stat_of_deletedFrom_of_ne hs hturns hother hon hod,
        fun hm => hdraft (mem_filesAmong.mp hm).2,
        ⟨_, Disk.list_eq (hs.turn hturns), fun other => ?_⟩, ?_⟩
      · refine run_readLines_eq_ok.mpr ⟨rfl, _, Disk.read_of_stat hwritten, ?_⟩
        exact (storedLines_textOfLines_eq fun line hline =>
          of_mem_storedLines (List.mem_filter.mp hline).1).symm
      · rw [← hat]
        exact mem_namesAt_of_deletedFrom hturns (by rw [hnode]; rfl) hne
      · rw [Allocator.release]
        by_cases hm : id ∈ store.allocator.free <;> simp [hm, hid]

/-- Two lines of a record, among a line that is no record, a blank one and another record. -/
theorem delete_is_exact_among_other_lines :
    let config : StoreConfig := ⟨⟨"/log"⟩, "sel", ⟨"/erased"⟩, 0, 3⟩
    let line (id : RecordId) : List Char := Line.format .epoch id ⟨0xE0, "", [], .oem, []⟩
    let text := textOfLines [line ⟨2⟩, "no record".toList, "  ".toList, line ⟨2⟩, line ⟨3⟩]
    let time : Timestamp := ⟨86400, 7, by decide, by decide⟩
    let disk : Disk := ⟨.epoch, 1, [([], .directory .epoch), (["log"], .directory .epoch),
      (["log", "sel"], .file 0 (bytesOf text) time)]⟩
    ∃ after next number, (Store.mk config ⟨⟨3⟩, [⟨1⟩]⟩).delete ⟨2⟩ disk = (.ok true, after, next) ∧
      next.stat (config.directory.join "sel")
        = .ok (.file number (bytesOf (textOfLines ["no record".toList, line ⟨3⟩])) time) ∧
      after.allocator.free = [⟨1⟩, ⟨2⟩] := by
  intro config line text time disk
  have hanswer : ((Store.mk config ⟨⟨3⟩, [⟨1⟩]⟩).delete ⟨2⟩ disk).1 = .ok true := by
    decide +kernel
  have hlist : disk.list config.directory = .ok ["sel"] := by decide +kernel
  have hlines : (storedLines text).filter (fun l => !hasId ⟨2⟩ l)
      = ["no record".toList, line ⟨3⟩] := by decide +kernel
  have hs : StandsAt config.directory ["log"] disk :=
    ⟨by decide +kernel, ⟨.epoch, by simp [disk, Disk.get?, List.lookup_cons]⟩, by decide +kernel⟩
  have hnode : disk.stat (config.directory.join "sel") = .ok (.file 0 (bytesOf text) time) :=
    Disk.stat_join_of_file hs (by decide) (by decide)
      (by simp [disk, Disk.children, Disk.get?, List.lookup_cons])
  rcases hrun : (Store.mk config ⟨⟨3⟩, [⟨1⟩]⟩).delete ⟨2⟩ disk with ⟨result, after, next⟩
  rw [hrun] at hanswer
  obtain rfl : result = .ok true := hanswer
  have hplain : ∀ names, disk.list config.directory = .ok names →
      names.Nodup ∧ ∀ name ∈ names, IsFileName name := fun names h => by
    rw [hlist, Except.ok.injEq] at h
    subst h
    decide
  obtain ⟨names, newer, name, older, _, number, found, _, hnames, hsplit, -, hthere, -, hleft, -, -,
    -, -, hafter⟩ := delete_is_exact (by decide) hplain hrun
  obtain rfl : ["sel"] = names := Except.ok.inj (hlist.symm.trans hnames)
  have hfiles : config.filesAmong ["sel"] = ["sel"] := by decide +kernel
  -- There is one file of the log, so it is the one.
  obtain ⟨rfl, rfl, rfl⟩ : newer = [] ∧ name = "sel" ∧ older = [] := by
    have hone : newer ++ name :: older = ["sel"] := hsplit.symm.trans hfiles
    simpa [List.append_eq_singleton_iff] using hone
  have hsame := hnode.symm.trans hthere
  rw [Except.ok.injEq, Node.file.injEq, bytesOf_inj] at hsame
  obtain ⟨-, rfl, rfl⟩ := hsame
  rw [hlines] at hleft
  exact ⟨after, next, number, rfl, hleft, by rw [hafter]; decide⟩

/-- Behind the record that is deleted stands a line that ends in a carriage return.  It loses
that, and has a number from then on. -/
theorem delete_drops_return :
    let config : StoreConfig := ⟨⟨"/log"⟩, "sel", ⟨"/erased"⟩, 0, 3⟩
    let file := config.directory.join "sel"
    let line := Line.format .epoch ⟨1⟩ ⟨0xE0, "", [], .oem, []⟩
    let text := line ++ "\n x 2\r\r\n".toList
    let disk : Disk := ⟨.epoch, 1, [([], .directory .epoch), (["log"], .directory .epoch),
      (["log", "sel"], .file 0 (bytesOf text) .epoch)]⟩
    let store : Store := ⟨config, ⟨⟨1⟩, []⟩⟩
    let (answer, after, next) := store.delete ⟨1⟩ disk
    ((readLines file).run disk).1 = .ok [line, " x 2\r".toList] ∧
      (store.delete ⟨2⟩ disk).1 = .ok false ∧
      answer = .ok true ∧
      ((readLines file).run next).1 = .ok [" x 2".toList] ∧
      (after.delete ⟨2⟩ next).1 = .ok true := by
  decide +kernel

end Store

end EventLog
