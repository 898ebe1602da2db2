import EventLog.Proofs.Store.Acknowledged
import EventLog.Proofs.Store.Shelf

/-!
# EventLog.Proofs.Store.Clearing

A log that was cleared is like a new one.  Nothing of what was in its directory
can be told from what it answers later.

* `LogCall`: an operation on a log, or a look at it;
* `Alike`: two logs with the same shelf that hand out the same numbers;
* `Alike.call`, `Alike.calls`: such logs give the same replies;
* `exists_marker_of_clear`: after clearing, the erase marker can be looked at;
* `cleared_is_new`: a cleared log and a new one are alike.
-/

namespace EventLog

open Disk (StandsAt)
open Step

/-- A call on a log: an operation, or a look at what it holds. -/
inductive LogCall where
  | perform (op : LogOp)
  | entries
  | info
  deriving DecidableEq, Repr

/-- The reply to a call; of what a log tells of itself, the times are left out. -/
inductive LogReply where
  | performed (answer : LogAnswer)
  | listed (entries : List Entry)
  | counted (entries : Nat)
  deriving DecidableEq, Repr

namespace Log

/-- The reply to a call, and the log afterwards; a look changes nothing. -/
def call (log : Log) : LogCall → Except StoreError (LogReply × Log)
  | .perform op => do
    let (answer, next) ← log.perform op
    return (.performed answer, next)
  | .entries => return (.listed (← log.entries), log)
  | .info => return (.counted (← log.info).entries, log)

/-- The replies to calls one after the other; there are none if the disk fails. -/
def calls (log : Log) : List LogCall → Except StoreError (List LogReply)
  | [] => .ok []
  | c :: rest => do
    let (reply, next) ← log.call c
    return reply :: (← next.calls rest)

/-- Two logs whose directories hold the files of the same shelf, and which hand out
the same numbers.  What else is on their disks may differ. -/
structure Alike (config : StoreConfig) (log other : Log) : Prop where
  shelf : ∃ shelf, log.OnShelf config shelf ∧ other.OnShelf config shelf
  allocator_eq : log.store.allocator = other.store.allocator

open StoreConfig

variable {config : StoreConfig} {shelf : Shelf} {log next other otherNext : Log} {place : Place}

/-- A log that was cleared has an empty shelf, and numbers from 1 again. -/
theorem onShelf_clear (hs : StandsAt log.store.config.directory place log.disk)
    (hname : IsFileName log.store.config.logName) {time : Timestamp} {answer : LogAnswer}
    (h : log.perform (.clear time) = .ok (answer, next)) :
    answer = .cleared ∧ next.OnShelf log.store.config [] ∧
      next.store.allocator = Allocator.fresh := by
  obtain ⟨rfl, hclear⟩ := clear_ok h
  obtain ⟨hstore, hs', hnone⟩ := StoreConfig.clear_ok hs hname hclear
  exact ⟨rfl, ⟨by rw [hstore], place, hs', shelved_nil hnone⟩, by rw [hstore]⟩

/-! ## Logs that are alike -/

section Alike

variable (hword : config.HasWord) (hname : IsFileName config.logName)

include hword hname

/-- The information counts the records of the shelf. -/
theorem OnShelf.entries_of_info (h : log.OnShelf config shelf) {info : StoreInfo}
    (hinfo : log.info = .ok info) :
    info.entries = numberedIn (shelf.records.map StoredRecord.line) := by
  have hlines := h.lines_eq hword hname
  obtain ⟨rfl, place, hs, hshelf⟩ := h
  exact Log.entries_of_info hs hname hshelf.readable hlines hinfo

/-- Logs that are alike answer an operation alike, and stay so. -/
theorem Alike.perform (h : Alike config log other) {op : LogOp} {answer otherAnswer : LogAnswer}
    (hop : log.perform op = .ok (answer, next))
    (hother : other.perform op = .ok (otherAnswer, otherNext)) :
    answer = otherAnswer ∧ Alike config next otherNext := by
  obtain ⟨⟨shelf, hshelf, hshelf'⟩, hallocator⟩ := h
  have hnext := hshelf.perform hword hname hop
  have hnext' := hshelf'.perform hword hname hother
  suffices hsame : answer = otherAnswer ∧ next.store.allocator = otherNext.store.allocator by
    obtain ⟨rfl, hsame⟩ := hsame
    exact ⟨rfl, ⟨_, hnext, hnext'⟩, hsame⟩
  cases op with
  | append time record =>
    rcases append_ok hop with ⟨e, hcheck, rfl, rfl⟩ | ⟨hcheck, rfl, hstore, -⟩ <;>
      rcases append_ok hother with ⟨e', hcheck', rfl, rfl⟩ | ⟨hcheck', rfl, hstore', -⟩ <;>
      cases hcheck.symm.trans hcheck'
    · exact ⟨rfl, hallocator⟩
    · rw [hstore, hstore', hallocator]
      exact ⟨rfl, rfl⟩
  | delete id =>
    obtain ⟨rfl, hstore⟩ := hshelf.delete hword hname hop
    obtain ⟨rfl, hstore'⟩ := hshelf'.delete hword hname hother
    rw [hstore, hstore']
    refine ⟨rfl, ?_⟩
    split
    · rw [hallocator]
    · exact hallocator
  | clear time =>
    obtain ⟨rfl, place, hs, -⟩ := hshelf
    obtain ⟨hconfig, place', hs', -⟩ := hshelf'
    rw [← hconfig] at hname hs'
    obtain ⟨rfl, -, hfresh⟩ := onShelf_clear hs (hconfig ▸ hname) hop
    obtain ⟨rfl, -, hfresh'⟩ := onShelf_clear hs' hname hother
    exact ⟨rfl, hfresh.trans hfresh'.symm⟩
  | reopen =>
    rw [hshelf.reopen hword hname hop, hshelf'.reopen hword hname hother]
    exact ⟨(reopen_ok hop).1.trans (reopen_ok hother).1.symm, rfl⟩

/-- **Logs that are alike** reply to a call alike, and stay so. -/
theorem Alike.call (h : Alike config log other) {c : LogCall} {reply otherReply : LogReply}
    (hcall : log.call c = .ok (reply, next))
    (hother : other.call c = .ok (otherReply, otherNext)) :
    reply = otherReply ∧ Alike config next otherNext := by
  cases c with
  | perform op =>
    obtain ⟨⟨answer, _⟩, hop, hcall⟩ := bind_eq_ok.mp hcall
    obtain ⟨⟨otherAnswer, _⟩, hop', hother⟩ := bind_eq_ok.mp hother
    cases hcall
    cases hother
    obtain ⟨rfl, hnext⟩ := h.perform hword hname hop hop'
    exact ⟨rfl, hnext⟩
  | entries =>
    obtain ⟨found, hfound, hcall⟩ := bind_eq_ok.mp hcall
    obtain ⟨found', hfound', hother⟩ := bind_eq_ok.mp hother
    cases hcall
    cases hother
    obtain ⟨shelf, hshelf, hshelf'⟩ := h.shelf
    rw [hshelf.entries_eq hword hname] at hfound
    rw [hshelf'.entries_eq hword hname, hfound] at hfound'
    cases hfound'
    exact ⟨rfl, h⟩
  | info =>
    obtain ⟨found, hfound, hcall⟩ := bind_eq_ok.mp hcall
    obtain ⟨found', hfound', hother⟩ := bind_eq_ok.mp hother
    cases hcall
    cases hother
    obtain ⟨shelf, hshelf, hshelf'⟩ := h.shelf
    rw [hshelf.entries_of_info hword hname hfound, hshelf'.entries_of_info hword hname hfound']
    exact ⟨rfl, h⟩

/-- So they reply to any number of calls. -/
theorem Alike.calls (h : Alike config log other) {cs : List LogCall}
    {replies otherReplies : List LogReply} (hcalls : log.calls cs = .ok replies)
    (hother : other.calls cs = .ok otherReplies) : replies = otherReplies := by
  induction cs generalizing log other replies otherReplies with
  | nil =>
    cases hcalls
    exact Except.ok.inj hother
  | cons c cs ih =>
    obtain ⟨⟨reply, next⟩, hcall, hcalls⟩ := bind_eq_ok.mp hcalls
    obtain ⟨⟨otherReply, otherNext⟩, hcall', hother⟩ := bind_eq_ok.mp hother
    obtain ⟨rest, hrest, hcalls⟩ := bind_eq_ok.mp hcalls
    obtain ⟨otherRest, hrest', hother⟩ := bind_eq_ok.mp hother
    cases hcalls
    cases hother
    obtain ⟨rfl, hnext⟩ := h.call hword hname hcall hcall'
    rw [ih hnext hrest hrest']

end Alike

/-! ## Cleared and new logs -/

/-- After a file got a time, its path leads to a file's place, and not to a directory. -/
theorem located_of_setModified {path : Path} {disk last : Disk} {time : Timestamp}
    (h : (Disk.setModified path time).run disk = (.ok (), last)) :
    Disk.namesDirectory path = false ∧ ∃ target, last.locate path = .ok target := by
  rw [Disk.setModified, run_bind_of_ok (run_get disk)] at h
  obtain ⟨⟨target, node⟩, middle, hlook, h⟩ := run_bind_eq_ok.mp h
  obtain ⟨hfind, rfl⟩ := Disk.run_look_eq_ok.mp hlook
  obtain ⟨hlocate, hnode⟩ := Disk.find_eq_ok hfind
  cases node with
  | directory old => cases h
  | socket => cases h
  | file number bytes old =>
    cases h
    exact ⟨Disk.namesDirectory_of_find hfind rfl, target, Disk.locate_of_grows
      (Disk.grows_put (Disk.not_isDirectoryAt_of_node hnode rfl) _) hlocate⟩

/-- An erase marker that was written has its place, and no name of a directory. -/
theorem located_of_touchMarker {disk last : Disk} {time : Timestamp}
    (h : (config.touchMarker time).run disk = (.ok (), last)) :
    Disk.namesDirectory config.eraseMarker = false ∧
      ∃ target, last.locate config.eraseMarker = .ok target := by
  rw [touchMarker] at h
  split at h
  · obtain ⟨_, _, -, h⟩ := run_bind_eq_ok.mp h
    obtain ⟨_, _, -, h⟩ := run_bind_eq_ok.mp h
    exact located_of_setModified (run_at_eq_ok.mp h)
  · obtain ⟨_, _, -, h⟩ := run_bind_eq_ok.mp h
    exact located_of_setModified (run_at_eq_ok.mp h)

/-- What a path leads to has a time, if it does not ask for a directory, or nothing is there. -/
theorem run_modifiedTime_of_located {path : Path} {disk : Disk} {target : Place}
    (hpath : Disk.namesDirectory path = false) (h : disk.locate path = .ok target) :
    ∃ time?, (modifiedTime path).run disk = (.ok time?, disk) := by
  rw [run_modifiedTime, Disk.modified, Disk.stat, Disk.find, h]
  cases hnode : disk.get? target with
  | none =>
    exact ⟨none, by simp [Bind.bind, Except.bind, hnode, Except.map, throw, throwThe,
      MonadExceptOf.throw]⟩
  | some node =>
    cases node <;>
      exact ⟨some _, by
        simp [Bind.bind, Except.bind, hnode, hpath, Except.map, pure, Except.pure]
        rfl⟩

/-- After clearing, the erase marker can be looked at. -/
theorem exists_marker_of_clear (hs : StandsAt log.store.config.directory place log.disk)
    (hname : IsFileName log.store.config.logName) {time : Timestamp} {answer : LogAnswer}
    (h : log.perform (.clear time) = .ok (answer, next)) :
    ∃ lastErase, (modifiedTime log.store.config.eraseMarker).run next.disk
      = (.ok lastErase, next.disk) := by
  obtain ⟨-, marked, hmarked, -, hturns⟩ := clear_eq_ok hs hname (clear_ok h).2
  obtain ⟨hpath, target, hlocate⟩ := located_of_touchMarker hmarked
  exact run_modifiedTime_of_located hpath (Disk.locate_of_grows hturns.grows hlocate)

/-- A log with an empty shelf has no record to delete. -/
theorem OnShelf.perform_delete (h : log.OnShelf config []) (hword : config.HasWord)
    (id : RecordId) : log.perform (.delete id) = .ok (.deleted false, log) := by
  obtain ⟨rfl, place, hs, hshelf⟩ := h
  have hnames : log.store.config.logNames log.disk place = [] := hshelf.logNames_eq hs hword
  unfold Log.perform
  dsimp only
  rw [Store.delete, run_bind_of_ok (run_files hs), hnames]
  rfl

variable {time : Timestamp} {answer : LogAnswer} {names : List String}

/-- **A log that was cleared is like a new one**, whatever stood in its directory and
whatever numbers it was to hand out.  It has no entry, tells so, deletes nothing and
hands out 1 first.  As long as no disk fails, every later call gets the reply that a
log opened in an empty directory gives. -/
theorem cleared_is_new (hname : IsFileName log.store.config.logName)
    (hword : log.store.config.HasWord)
    (hlist : log.disk.list log.store.config.directory = .ok names) (hnames : names.Nodup)
    (hclear : log.perform (.clear time) = .ok (answer, next)) :
    next.entries = .ok [] ∧
    (log.store.config.logName.utf8ByteSize ≤ Disk.nameLimit →
      ∃ info, next.info = .ok info ∧ info.entries = 0) ∧
    (∀ id, next.perform (.delete id) = .ok (.deleted false, next)) ∧
    (∀ time record id last, next.perform (.append time record) = .ok (.appended id, last) →
      id = ⟨1⟩) ∧
    ∀ disk, disk.list log.store.config.directory = .ok [] →
      ∃ fresh, Log.open log.store.config disk = .ok fresh ∧
        ∀ calls replies replies', next.calls calls = .ok replies →
          fresh.calls calls = .ok replies' → replies = replies' := by
  obtain ⟨place, hs, -⟩ := Disk.standsAt_of_list hlist hnames
  obtain ⟨-, hshelf, hfresh⟩ := onShelf_clear hs hname hclear
  refine ⟨hshelf.entries_eq hword hname, fun hfits => ?_, hshelf.perform_delete hword,
    fun time record id last hop => ?_, fun disk hempty => ?_⟩
  · obtain ⟨lastErase, hmarker⟩ := exists_marker_of_clear hs hname hclear
    obtain ⟨lastAdd, hinfo⟩ := hshelf.info_eq hword hname hfits (congrArg Prod.fst hmarker)
    exact ⟨_, hinfo, rfl⟩
  · rcases append_ok hop with ⟨_, -, h, -⟩ | ⟨-, h, -⟩
    · cases h
    · rw [hfresh] at h
      cases h
      rfl
  · obtain ⟨hopen, hshelf'⟩ := open_of_list_nil hname hempty
    exact ⟨_, hopen, fun calls replies replies' hcalls hcalls' =>
      Alike.calls hword hname ⟨⟨[], hshelf, hshelf'⟩, hfresh⟩ hcalls hcalls'⟩

/-- A log with a file of an odd name, a draft with a record, and a free number. -/
theorem cleared_is_new_behind_odd_file :
    let config : StoreConfig := ⟨⟨"/log"⟩, "sel", ⟨"/log/erased"⟩, 0, 1⟩
    let note : Record := ⟨0xE0, "", [], .oem, []⟩
    let old := Node.file 0 (bytesOf (Line.format .epoch ⟨7⟩ note)) .epoch
    let empty : Disk := ⟨.epoch, 1, [([], .directory .epoch), (["log"], .directory .epoch)]⟩
    let disk : Disk := { empty with
      nodes := empty.nodes ++ [(["log", "sel.01"], old), (["log", ".sel.tmp"], old)] }
    let calls : List LogCall := [.perform (.append .epoch note), .perform (.delete ⟨1⟩),
      .perform (.append .epoch note), .perform .reopen, .info, .entries]
    let replies : List LogReply := [.performed (.appended ⟨1⟩), .performed (.deleted true),
      .performed (.appended ⟨1⟩), .performed .opened, .counted 1,
      .listed [note.entry .epoch ⟨1⟩]]
    ∃ cleared fresh, Log.perform ⟨⟨config, ⟨⟨65534⟩, [⟨4⟩]⟩⟩, disk⟩ (.clear .epoch)
        = .ok (.cleared, cleared) ∧
      cleared.entries = .ok [] ∧ cleared.calls calls = .ok replies ∧
      Log.open config empty = .ok fresh ∧ fresh.calls calls = .ok replies := by
  intro config note old empty disk calls replies
  have hreplies : (Log.perform ⟨⟨config, ⟨⟨65534⟩, [⟨4⟩]⟩⟩, disk⟩ (.clear .epoch)
      >>= fun found => found.2.calls calls) = .ok replies := by
    decide +kernel
  have hothers : (do return (← (← Log.open config empty).calls calls).length) = .ok 6 := by
    decide +kernel
  have hlist : disk.list config.directory = .ok ["sel.01", ".sel.tmp"] := by decide +kernel
  have hempty : empty.list config.directory = .ok [] := by decide +kernel
  obtain ⟨⟨answer, cleared⟩, hclear, hcalls⟩ := bind_eq_ok.mp hreplies
  have hname : IsFileName config.logName := by decide
  have hword : config.HasWord := (by decide : (1 : Nat) < Text.wordLimit)
  obtain ⟨hentries, -, -, -, hnew⟩ := cleared_is_new hname hword hlist (by decide) hclear
  obtain ⟨fresh, hopen, hsame⟩ := hnew empty hempty
  obtain ⟨_, hopen', hothers⟩ := bind_eq_ok.mp hothers
  obtain ⟨others, hothers, -⟩ := bind_eq_ok.mp hothers
  cases hopen.symm.trans hopen'
  obtain rfl := hsame calls replies others hcalls hothers
  exact ⟨cleared, fresh, (clear_ok hclear).1 ▸ hclear, hentries, hcalls, hopen, hothers⟩

end Log

end EventLog
