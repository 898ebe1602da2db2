import EventLog.Proofs.Disk.Files

/-!
# EventLog.Proofs.Disk.Frame

What an operation does by what its path leads to, and what it leaves alone.

* `find_eq_ok_iff`, `fileNumber_eq_ok_iff`: what a path leads to;
* `Spares`: all files and sockets of a disk are still there, and nothing is out of
  reach; making directories and sockets spares a disk;
* `DiffersAt`: only one place has changed, and no directory came or went; writing a file
  that is there and removing one are such changes;
* `keeps_of_spares`, `keeps_fileNumber`, `write_keeps`: what follows for a step that does so;
* `stat_of_write`: a write that succeeded made the file of what the path held before.
-/

namespace EventLog.Disk

open Step

variable {disk next start : Disk} {path : Path} {place other : Place} {node : Node}

/-! ## What a path leads to -/

/-- A path leads to what is stored at its place, unless it asks for a directory that is none. -/
theorem find_eq_ok_iff :
    disk.find path = .ok (place, node) ↔ disk.locate path = .ok place ∧
      disk.get? place = some node ∧ (namesDirectory path = true → node.isDirectory = true) := by
  rw [find]
  cases hlocate : disk.locate path with
  | error e => simp [Bind.bind, Except.bind]
  | ok target =>
    cases hnode : disk.get? target with
    | none =>
      simp only [Bind.bind, Except.bind, hnode, throw, throwThe, MonadExceptOf.throw]
      grind
    | some found =>
      simp only [Bind.bind, Except.bind, hnode, throw, throwThe, MonadExceptOf.throw, pure,
        Except.pure]
      grind

/-- A path that leads to no directory does not name one. -/
theorem namesDirectory_of_find (h : disk.find path = .ok (place, node))
    (hn : node.isDirectory = false) : namesDirectory path = false := by
  obtain ⟨-, -, hdirectory⟩ := find_eq_ok_iff.mp h
  cases hd : namesDirectory path with
  | false => rfl
  | true => rw [hdirectory hd] at hn; cases hn

/-- What a path names is what it leads to. -/
theorem stat_eq_ok_iff :
    disk.stat path = .ok node ↔ ∃ place, disk.find path = .ok (place, node) := by
  rw [stat]
  cases disk.find path with
  | error e => simp [Except.map]
  | ok found => simp [Except.map, Prod.ext_iff]

/-- What a path names, once its place is known. -/
theorem stat_eq_ok_iff_of_locate (h : disk.locate path = .ok place)
    (hn : node.isDirectory = false) :
    disk.stat path = .ok node ↔ namesDirectory path = false ∧ disk.get? place = some node := by
  simp only [stat_eq_ok_iff, find_eq_ok_iff, h, Except.ok.injEq, hn]
  grind

/-- A path has the number of the file that it names. -/
theorem fileNumber_eq_ok_iff {number : Nat} :
    disk.fileNumber path = .ok number ↔
      ∃ bytes time, disk.stat path = .ok (.file number bytes time) := by
  rw [fileNumber]
  cases disk.stat path with
  | error e => simp [Bind.bind, Except.bind]
  | ok node =>
    cases node <;>
      simp [Bind.bind, Except.bind, pure, Except.pure, throw, throwThe, MonadExceptOf.throw]

theorem fileNumber_of_find {number : Nat} {bytes : ByteArray} {time : Timestamp}
    (h : disk.find path = .ok (place, .file number bytes time)) :
    disk.fileNumber path = .ok number :=
  fileNumber_eq_ok_iff.mpr ⟨bytes, time, stat_eq_ok_iff.mpr ⟨place, h⟩⟩

/-! ## Disks that are spared -/

/-- All files and sockets of a disk are still there, and whatever could be reached still can. -/
structure Spares (disk next : Disk) : Prop where
  grows : Grows disk next
  get?_eq : ∀ (place : Place) (node : Node), disk.get? place = some node →
    node.isDirectory = false → next.get? place = some node

theorem Spares.refl (disk : Disk) : Spares disk disk := ⟨Grows.refl disk, fun _ _ h _ => h⟩

theorem Spares.trans {last : Disk} (h : Spares disk next) (h' : Spares next last) :
    Spares disk last :=
  ⟨h.grows.trans h'.grows, fun _ _ hnode hn => h'.get?_eq _ _ (h.get?_eq _ _ hnode hn) hn⟩

/-- A file or socket that is spared is found where it was. -/
theorem Spares.find_eq (h : Spares disk next) (hfind : disk.find path = .ok (place, node))
    (hn : node.isDirectory = false) : next.find path = .ok (place, node) := by
  obtain ⟨hlocate, hnode, hdirectory⟩ := find_eq_ok_iff.mp hfind
  exact find_eq_ok_iff.mpr ⟨locate_of_grows h.grows hlocate, h.get?_eq _ _ hnode hn, hdirectory⟩

/-- A path names the same file or socket as long as that is spared. -/
theorem Spares.stat_eq (h : Spares disk next) (hstat : disk.stat path = .ok node)
    (hn : node.isDirectory = false) : next.stat path = .ok node := by
  obtain ⟨place, hfind⟩ := stat_eq_ok_iff.mp hstat
  exact stat_eq_ok_iff.mpr ⟨place, h.find_eq hfind hn⟩

/-- A file that is spared keeps its number. -/
theorem Spares.fileNumber_eq (h : Spares disk next) {number : Nat}
    (hnumber : disk.fileNumber path = .ok number) : next.fileNumber path = .ok number := by
  obtain ⟨bytes, time, hstat⟩ := fileNumber_eq_ok_iff.mp hnumber
  exact fileNumber_eq_ok_iff.mpr ⟨bytes, time, h.stat_eq hstat rfl⟩

/-- Storing something where nothing stood spares the rest. -/
theorem spares_put (h : disk.get? place = none) (node : Node) :
    Spares disk (disk.put place node) where
  grows := grows_put (fun ⟨_, ht⟩ => by rw [h] at ht; cases ht) node
  get?_eq other found hfound _ := by
    have hne : other ≠ place := by
      rintro rfl
      rw [h] at hfound
      cases hfound
    rw [get?_put_of_ne hne, hfound]

/-- A stamp changes directories only. -/
theorem get?_stamp_of_not_isDirectory (place other : Place) (hn : node.isDirectory = false) :
    (disk.stamp place).get? other = some node ↔ disk.get? other = some node := by
  by_cases h : other = place
  · subst h
    unfold stamp
    split
    · next time ht =>
      rw [get?_put_self, ht]
      constructor <;> (intro h; cases h; cases hn)
    · exact Iff.rfl
  · rw [get?_stamp_of_ne h]

theorem spares_stamp (disk : Disk) (place : Place) : Spares disk (disk.stamp place) :=
  ⟨grows_stamp disk place, fun _ _ h hn => (get?_stamp_of_not_isDirectory _ _ hn).mpr h⟩

/-- Making a directory spares all files and sockets. -/
theorem makeDirectory_spares (path : Path) : Keeps (Spares start) (makeDirectory path) := by
  intro disk h
  rw [makeDirectory, run_bind_of_ok (run_get disk), run_bind, run_look]
  cases disk.locate path with
  | error e => exact h
  | ok place =>
    cases hnode : disk.get? place with
    | some node => simp only [hnode]; exact h
    | none =>
      simp only [hnode]
      split
      · exact h.trans ((spares_put hnode _).trans (spares_stamp _ _))
      · exact h
      · exact h

/-- Making a directory and those above it keeps what making one of them keeps. -/
theorem makeDirectoriesWithin_keeps {I : Disk → Prop}
    (h : ∀ path, Keeps I (makeDirectory path)) (steps : Nat) (path : Path) :
    Keeps I (makeDirectoriesWithin steps path) := by
  induction steps generalizing path with
  | zero => exact Keeps.throw _
  | succ steps ih =>
    have hexist (e : SystemError) : Keeps I (do
        if (← get).isDirectory path then return else throw e : DiskM Unit) := by
      intro disk h
      rw [run_bind_of_ok (run_get disk)]
      split <;> exact h
    rw [makeDirectoriesWithin]
    split
    · exact Keeps.pure _
    · refine Keeps.tryCatch (h path) fun e => ?_
      split
      · split
        · exact Keeps.throw _
        · exact Keeps.bind (ih _) fun _ => Keeps.tryCatch (h path) hexist
      · exact hexist _

theorem makeDirectories_spares (path : Path) : Keeps (Spares start) (makeDirectories path) :=
  makeDirectoriesWithin_keeps makeDirectory_spares _ path

/-- Making a directory that is there changes nothing. -/
theorem run_makeDirectories_of_locate (h : disk.locate path = .ok place)
    (hd : disk.IsDirectoryAt place) : (makeDirectories path).run disk = (.ok (), disk) := by
  obtain ⟨time, hd⟩ := hd
  have hlocate := run_look (·.locate path) disk
  rw [h] at hlocate
  have hmake : (makeDirectory path).run disk = (.error .alreadyExists, disk) := by
    rw [makeDirectory, run_bind_of_ok (run_get disk), run_bind_of_ok hlocate]
    simp only [hd]
    rfl
  have hthere : disk.isDirectory path = true := by
    rw [isDirectory, stat_eq_ok_iff.mpr ⟨place, find_eq_ok_iff.mpr ⟨h, hd, fun _ => rfl⟩⟩]
    rfl
  rw [makeDirectories, makeDirectoriesWithin, if_neg (text_ne_of_locate h), run_tryCatch, hmake]
  simp only [run_bind_of_ok (run_get disk), hthere, if_true]
  rfl

/-- Making a socket spares the disk, and then it is there. -/
theorem run_bind_socket (path : Path) (disk : Disk) :
    (∃ cause, (bind path).run disk = (.error cause, disk)) ∨
      ∃ next, (bind path).run disk = (.ok (), next) ∧ Spares disk next ∧
        next.stat path = .ok .socket := by
  rw [bind, run_bind_of_ok (run_get disk)]
  by_cases hlong : socketPathLimit ≤ path.text.utf8ByteSize
  · rw [if_pos hlong]
    exact .inl ⟨_, rfl⟩
  · rw [if_neg hlong]
    have hlook := run_look (·.locate path) disk
    cases hlocate : disk.locate path with
    | error e =>
      simp only [hlocate] at hlook
      exact .inl ⟨e, run_bind_of_error hlook _⟩
    | ok place =>
      simp only [hlocate] at hlook
      simp only [run_bind_of_ok hlook]
      cases hnode : disk.get? place with
      | some node => exact .inl ⟨_, rfl⟩
      | none =>
        have hspares := (spares_put hnode .socket).trans (spares_stamp _ place.dropLast)
        cases hnames : namesDirectory path with
        | true => exact .inl ⟨_, rfl⟩
        | false =>
          rcases habove : disk.get? place.dropLast with _ | above
          · exact .inl ⟨.noEntry, by simp⟩
          · cases above with
            | file => exact .inl ⟨.notDirectory, by simp⟩
            | socket => exact .inl ⟨.notDirectory, by simp⟩
            | directory time =>
              refine .inr ⟨_, by simp, hspares, ?_⟩
              refine (stat_eq_ok_iff_of_locate (locate_of_grows hspares.grows hlocate) rfl).mpr
                ⟨hnames, (get?_stamp_of_not_isDirectory _ _ rfl).mpr (get?_put_self ..)⟩

/-! ## Disks that differ at one place -/

/-- The directories of two disks are the same, and so are all files and sockets save what
stands at one place. -/
structure DiffersAt (place : Place) (disk next : Disk) : Prop where
  isDirectoryAt_iff : ∀ other, disk.IsDirectoryAt other ↔ next.IsDirectoryAt other
  get?_iff : ∀ other ≠ place, ∀ node : Node, node.isDirectory = false →
    (disk.get? other = some node ↔ next.get? other = some node)

theorem DiffersAt.symm (h : DiffersAt place disk next) : DiffersAt place next disk :=
  ⟨fun other => (h.isDirectoryAt_iff other).symm,
    fun other hne node hn => (h.get?_iff other hne node hn).symm⟩

/-- Stamping a directory besides changes no other file. -/
theorem DiffersAt.stamp (h : DiffersAt place disk next) (other : Place) :
    DiffersAt place disk (next.stamp other) :=
  ⟨fun found => (h.isDirectoryAt_iff found).trans isDirectoryAt_stamp.symm,
    fun found hne node hn => (h.get?_iff found hne node hn).trans
      (get?_stamp_of_not_isDirectory other found hn).symm⟩

theorem DiffersAt.grows (h : DiffersAt place disk next) : Grows disk next :=
  grows_of_isDirectoryAt fun other => (h.isDirectoryAt_iff other).mp

/-- What stands elsewhere is found where it was. -/
theorem DiffersAt.find_eq (h : DiffersAt place disk next)
    (hfind : disk.find path = .ok (other, node)) (hn : node.isDirectory = false)
    (hne : other ≠ place) : next.find path = .ok (other, node) := by
  obtain ⟨hlocate, hnode, hdirectory⟩ := find_eq_ok_iff.mp hfind
  exact find_eq_ok_iff.mpr
    ⟨locate_of_grows h.grows hlocate, (h.get?_iff other hne node hn).mp hnode, hdirectory⟩

/-- A file has the same content and time on both disks, unless it stands at the place. -/
theorem DiffersAt.stat_iff (h : DiffersAt place disk next) (hn : node.isDirectory = false)
    (hdisk : disk.get? place ≠ some node) (hnext : next.get? place ≠ some node) :
    disk.stat path = .ok node ↔ next.stat path = .ok node := by
  have hone {disk next : Disk} (h : DiffersAt place disk next)
      (hdisk : disk.get? place ≠ some node) (hstat : disk.stat path = .ok node) :
      next.stat path = .ok node := by
    obtain ⟨other, hfind⟩ := stat_eq_ok_iff.mp hstat
    have hne : other ≠ place := by
      rintro rfl
      exact hdisk (find_eq_ok hfind).2
    exact stat_eq_ok_iff.mpr ⟨other, h.find_eq hfind hn hne⟩
  exact ⟨hone h hdisk, hone h.symm hnext⟩

theorem not_isDirectoryAt_of_node (h : disk.get? place = some node)
    (hn : node.isDirectory = false) :
    ¬ disk.IsDirectoryAt place := fun ⟨time, ht⟩ => by
  rw [h, Option.some.injEq] at ht
  rw [ht] at hn
  cases hn

/-- Storing a file in place of another one changes its place only. -/
theorem differsAt_put {made : Node} (h : disk.get? place = some node)
    (hn : node.isDirectory = false) (hm : made.isDirectory = false) :
    DiffersAt place disk (disk.put place made) where
  isDirectoryAt_iff other := by
    by_cases hother : other = place
    · subst hother
      exact iff_of_false (not_isDirectoryAt_of_node h hn)
        (not_isDirectoryAt_of_node (get?_put_self ..) hm)
    · simp only [IsDirectoryAt, get?_put_of_ne hother]
  get?_iff other hne found _ := by rw [get?_put_of_ne hne]

/-- Removing a file changes its place only. -/
theorem differsAt_erase (h : disk.get? place = some node) (hn : node.isDirectory = false) :
    DiffersAt place disk (disk.erase place) where
  isDirectoryAt_iff other := by
    by_cases hother : other = place
    · subst hother
      refine iff_of_false (not_isDirectoryAt_of_node h hn) fun ⟨time, ht⟩ => ?_
      rw [get?_erase_self] at ht
      cases ht
    · simp only [IsDirectoryAt, get?_erase_of_ne hother]
  get?_iff other hne found _ := by rw [get?_erase_of_ne hne]

/-! ## Files that are there -/

/-- A file that is there can be written; it stays the same file. -/
theorem run_write_of_find {number : Nat} {bytes : ByteArray} {time : Timestamp}
    (h : disk.find path = .ok (place, .file number bytes time))
    (update : ByteArray → ByteArray) :
    (write path update).run disk =
      (.ok (), disk.put place (.file number (update bytes) disk.clock)) := by
  obtain ⟨hlocate, hnode⟩ := find_eq_ok h
  have hlook := run_look (·.locate path) disk
  simp only [hlocate] at hlook
  rw [write, run_bind_of_ok (run_get disk), run_bind_of_ok hlook]
  simp only [hnode, namesDirectory_of_find h rfl]
  rfl

/-- The bytes that a write begins with: those of the file, or none if there is no file yet. -/
def Holds (disk : Disk) (path : Path) (bytes : ByteArray) : Prop :=
  disk.read path = .ok bytes ∨ disk.stat path = .error .noEntry ∧ bytes = .empty

/-- A file that a path names is read. -/
theorem read_of_stat {number : Nat} {bytes : ByteArray} {time : Timestamp}
    (h : disk.stat path = .ok (.file number bytes time)) : disk.read path = .ok bytes := by
  rw [read, h]
  rfl

/-- A path to an empty place names nothing. -/
theorem stat_of_get?_eq_none (hlocate : disk.locate path = .ok place)
    (hnone : disk.get? place = none) : disk.stat path = .error .noEntry := by
  rw [stat, find, hlocate]
  simp only [Bind.bind, Except.bind, hnone]
  rfl

/-- What was written is what the path leads to; its bytes come from those that were there. -/
theorem stat_of_write {update : ByteArray → ByteArray}
    (h : (write path update).run disk = (.ok (), next)) :
    ∃ number bytes, disk.Holds path bytes ∧
      next.stat path = .ok (.file number (update bytes) disk.clock) := by
  rw [write, run_bind_of_ok (run_get disk), run_bind_eq_ok] at h
  obtain ⟨place, same, hlook, h⟩ := h
  obtain ⟨hlocate, rfl⟩ := run_look_eq_ok.mp hlook
  cases hnames : namesDirectory path with
  | true =>
    simp only [hnames] at h
    split at h <;> cases h
  | false =>
    have hwritten {node : Node} (hn : node.isDirectory = false) (hg : Grows same next)
        (hnode : next.get? place = some node) : next.stat path = .ok node :=
      (stat_eq_ok_iff_of_locate (locate_of_grows hg hlocate) hn).mpr ⟨hnames, hnode⟩
    simp only [hnames] at h
    cases hnode : same.get? place with
    | some node =>
      cases node with
      | directory time => simp only [hnode] at h; cases h
      | socket => simp only [hnode] at h; cases h
      | file number bytes time =>
        simp only [hnode] at h
        cases h
        have hread := read_of_stat ((stat_eq_ok_iff_of_locate hlocate rfl).mpr ⟨hnames, hnode⟩)
        exact ⟨number, bytes, .inl hread,
          hwritten rfl (differsAt_put hnode rfl rfl).grows (get?_put_self ..)⟩
    | none =>
      simp only [hnode] at h
      rcases habove : same.get? place.dropLast with _ | above
      · simp only [habove] at h; cases h
      · cases above with
        | file => simp only [habove] at h; cases h
        | socket => simp only [habove] at h; cases h
        | directory time =>
          simp only [habove] at h
          cases h
          -- the disk differs from the old one in the number of its next file too
          have hfree : ({ same with nextFile := same.nextFile + 1 } : Disk).get? place = none :=
            hnode
          have hspares := (spares_put hfree
            (.file same.nextFile (update .empty) same.clock)).trans (spares_stamp _ place.dropLast)
          exact ⟨same.nextFile, .empty, .inr ⟨stat_of_get?_eq_none hlocate hnode, rfl⟩,
            hwritten rfl hspares.grows
              ((get?_stamp_of_not_isDirectory _ _ rfl).mpr (get?_put_self ..))⟩

/-- Behind such a change the path leads to the file as it was written. -/
theorem find_put_of_find {made : Node} (h : disk.find path = .ok (place, node))
    (hn : node.isDirectory = false) (hm : made.isDirectory = false) :
    (disk.put place made).find path = .ok (place, made) := by
  obtain ⟨hlocate, hnode, hdirectory⟩ := find_eq_ok_iff.mp h
  refine find_eq_ok_iff.mpr ⟨locate_of_grows (differsAt_put hnode hn hm).grows hlocate,
    get?_put_self .., fun hd => ?_⟩
  rw [hdirectory hd] at hn
  cases hn

/-- What is no directory can be removed. -/
theorem run_removeFile_of_find (h : disk.find path = .ok (place, node))
    (hn : node.isDirectory = false) :
    (removeFile path).run disk = (.ok (), (disk.erase place).stamp place.dropLast) := by
  have hlook := run_look (·.find path) disk
  simp only [h] at hlook
  rw [removeFile, run_bind_of_ok (run_get disk), run_bind_of_ok hlook]
  cases node with
  | directory time => cases hn
  | file number bytes time => rfl
  | socket => rfl

/-- Behind that the path leads to nothing. -/
theorem find_erase_of_find (h : disk.find path = .ok (place, node))
    (hn : node.isDirectory = false) :
    ((disk.erase place).stamp place.dropLast).find path = .error .noEntry := by
  obtain ⟨hlocate, hnode⟩ := find_eq_ok h
  have hdiffers := (differsAt_erase hnode hn).stamp place.dropLast
  have hnone : ((disk.erase place).stamp place.dropLast).get? place = none := by
    unfold stamp
    split
    · next time hd =>
      have hne : place ≠ place.dropLast := fun e => by
        rw [← e, get?_erase_self] at hd
        cases hd
      rw [get?_put_of_ne hne, get?_erase_self]
    · exact get?_erase_self ..
  rw [find, locate_of_grows hdiffers.grows hlocate]
  simp [hnone, Bind.bind, Except.bind, throw, throwThe, MonadExceptOf.throw]

/-- Removing a file changes nothing, or takes away what is no directory. -/
theorem run_removeFile (path : Path) (disk : Disk) :
    (∃ cause, (removeFile path).run disk = (.error cause, disk)) ∨
      ∃ place node, disk.find path = .ok (place, node) ∧ node.isDirectory = false ∧
        (removeFile path).run disk = (.ok (), (disk.erase place).stamp place.dropLast) := by
  have hlook := run_look (·.find path) disk
  rcases hfind : disk.find path with cause | ⟨place, node⟩
  · simp only [hfind] at hlook
    rw [removeFile, run_bind_of_ok (run_get disk)]
    exact .inl ⟨cause, run_bind_of_error hlook _⟩
  · cases hn : node.isDirectory with
    | false => exact .inr ⟨place, node, rfl, hn, run_removeFile_of_find hfind hn⟩
    | true =>
      simp only [hfind] at hlook
      rw [removeFile, run_bind_of_ok (run_get disk), run_bind_of_ok hlook]
      cases node with
      | directory time => exact .inl ⟨.isDirectory, rfl⟩
      | file number bytes time => cases hn
      | socket => cases hn

/-! ## What a step keeps -/

/-- What only looks keeps everything. -/
theorem look_keeps {α : Type} {I : Disk → Prop} (f : Disk → Except SystemError α) :
    Keeps I (look f) := by
  intro disk hI
  rw [run_look]
  cases f disk <;> exact hI

/-- A step keeps what holds wherever files and sockets are still there, if it spares the disk. -/
theorem keeps_of_spares {ε α : Type} {I : Disk → Prop} {x : ExceptT ε (StateM Disk) α}
    (hI : ∀ disk next, Spares disk next → I disk → I next)
    (h : ∀ start, Keeps (Spares start) x) : Keeps I x :=
  fun disk hd => hI disk _ (h disk disk (Spares.refl disk)) hd

/-- A step that keeps what a path leads to keeps the number of the file there. -/
theorem keeps_fileNumber {ε α : Type} {x : ExceptT ε (StateM Disk) α} {path : Path}
    (h : ∀ node : Node, node.isDirectory = false → Keeps (fun disk => disk.stat path = .ok node) x)
    (number : Nat) : Keeps (fun disk => disk.fileNumber path = .ok number) x := by
  intro disk hdisk
  obtain ⟨bytes, time, hstat⟩ := fileNumber_eq_ok_iff.mp hdisk
  exact fileNumber_eq_ok_iff.mpr ⟨bytes, time, h _ rfl disk hstat⟩

/-- A file that is written keeps its number. -/
theorem write_keeps (path : Path) (update : ByteArray → ByteArray) (number : Nat) :
    Keeps (fun disk => disk.fileNumber path = .ok number) (write path update) := by
  intro disk hnumber
  obtain ⟨bytes, time, hstat⟩ := fileNumber_eq_ok_iff.mp hnumber
  obtain ⟨place, hfind⟩ := stat_eq_ok_iff.mp hstat
  rw [run_write_of_find hfind]
  exact fileNumber_of_find (find_put_of_find hfind rfl rfl)

end EventLog.Disk
