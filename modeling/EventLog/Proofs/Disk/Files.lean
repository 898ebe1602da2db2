import EventLog.Proofs.Disk.Folder

/-!
# EventLog.Proofs.Disk.Files

The operations on a file of a directory, by what stands in the directory under
the file's name: what they give, when they fail and what they leave.
-/

namespace EventLog.Disk

open Step

variable {dir : Path} {place : Place} {disk next : Disk} {name : String}

/-- The bytes that stand under a name; none if no file does. -/
def bytesIn : Option Node → ByteArray
  | some (.file _ bytes _) => bytes
  | _ => .empty

/-- Looking changes nothing. -/
theorem run_look {α : Type} (f : Disk → Except SystemError α) (disk : Disk) :
    (look f).run disk =
      match f disk with
      | .ok a => (.ok a, disk)
      | .error e => (.error e, disk) := by
  rw [look, run_bind, run_get]
  cases h : f disk <;> simp [h]

theorem run_look_eq_ok {α : Type} {f : Disk → Except SystemError α} {a : α} :
    (look f).run disk = (.ok a, next) ↔ f disk = .ok a ∧ next = disk := by
  rw [run_look]
  cases f disk with
  | error e => exact ⟨fun h => (by cases h), fun h => (by cases h.1)⟩
  | ok b => exact ⟨fun h => (by cases h; exact ⟨rfl, rfl⟩), fun ⟨h, hn⟩ => (by cases h; rw [hn])⟩

/-! ## Looking -/

/-- What the path of a file in a directory leads to, by the table of the directory. -/
theorem stat_join (hs : StandsAt dir place disk) (hn : IsFileName name) :
    disk.stat (dir.join name) =
      if nameLimit < name.utf8ByteSize then .error .nameTooLong
      else match disk.children place name with
        | none => .error .noEntry
        | some node => .ok node := by
  rw [stat, find, locate_join hs.located hs.isDirectory hn]
  split
  · rfl
  · rw [children]
    cases h : disk.get? (place ++ [name]) <;>
      simp [h, Bind.bind, Except.bind, Except.map, pure, Except.pure, throw, throwThe,
        MonadExceptOf.throw, namesDirectory_join hs.text_ne hn]

/-- A file that is in the directory is found. -/
theorem find_join_of_children (hs : StandsAt dir place disk) (hn : IsFileName name)
    (hsize : name.utf8ByteSize ≤ nameLimit) {node : Node}
    (h : disk.children place name = some node) :
    disk.find (dir.join name) = .ok (place ++ [name], node) := by
  rw [children] at h
  rw [find, locate_join hs.located hs.isDirectory hn, if_neg (by omega)]
  simp [h, Bind.bind, Except.bind, pure, Except.pure, namesDirectory_join hs.text_ne hn]

/-- A file that is not there is missing, if its name is short enough. -/
theorem find_join_of_none (hs : StandsAt dir place disk) (hn : IsFileName name)
    (hsize : name.utf8ByteSize ≤ nameLimit) (h : disk.children place name = none) :
    disk.find (dir.join name) = .error .noEntry := by
  rw [children] at h
  rw [find, locate_join hs.located hs.isDirectory hn, if_neg (by omega)]
  simp [h, Bind.bind, Except.bind, throw, throwThe, MonadExceptOf.throw]

/-- A name that is too long names no file. -/
theorem find_join_of_long (hs : StandsAt dir place disk) (hn : IsFileName name)
    (hsize : nameLimit < name.utf8ByteSize) :
    disk.find (dir.join name) = .error .nameTooLong := by
  rw [find, locate_join hs.located hs.isDirectory hn, if_pos hsize]
  rfl

theorem find_eq_ok {path : Path} {other : Place} {node : Node}
    (h : disk.find path = .ok (other, node)) :
    disk.locate path = .ok other ∧ disk.get? other = some node := by
  rw [find] at h
  cases hl : disk.locate path with
  | error e => simp [hl, Bind.bind, Except.bind] at h
  | ok target =>
    cases hg : disk.get? target with
    | none => simp [hl, hg, Bind.bind, Except.bind, throw, throwThe, MonadExceptOf.throw] at h
    | some found =>
      simp only [hl, hg, Bind.bind, Except.bind] at h
      split at h
      · cases h
      · cases h
        exact ⟨rfl, hg⟩

/-- A file is there exactly if the directory has it. -/
theorem has_join (hs : StandsAt dir place disk) (hn : IsFileName name)
    (hsize : (disk.children place name).isSome → name.utf8ByteSize ≤ nameLimit) :
    disk.has (dir.join name) = (disk.children place name).isSome := by
  rw [has, stat_join hs hn]
  cases h : disk.children place name with
  | none => split <;> rfl
  | some node => rw [if_neg (by have := hsize (by simp [h]); omega)]; rfl

/-- The names in the directory. -/
theorem list_eq (hs : StandsAt dir place disk) : disk.list dir = .ok (disk.namesAt place) := by
  obtain ⟨time, hd⟩ := hs.isDirectory
  simp [list, find, hs.located, hd, Node.isDirectory, Bind.bind, Except.bind, pure, Except.pure]

/-- What can be listed is a directory. -/
theorem isDirectoryAt_of_list {names : List String} (h : disk.list dir = .ok names) :
    ∃ place, disk.locate dir = .ok place ∧ disk.IsDirectoryAt place ∧
      disk.namesAt place = names := by
  rw [list] at h
  cases hfind : disk.find dir with
  | error e => simp [hfind, Bind.bind, Except.bind] at h
  | ok found =>
    obtain ⟨place, node⟩ := found
    obtain ⟨hlocate, hnode⟩ := find_eq_ok hfind
    cases node with
    | directory time =>
      simp only [hfind, Bind.bind, Except.bind, Node.isDirectory, if_true, pure, Except.pure,
        Except.ok.injEq] at h
      exact ⟨place, hlocate, ⟨time, hnode⟩, h⟩
    | file number bytes time => simp [hfind, Bind.bind, Except.bind, Node.isDirectory] at h
    | socket => simp [hfind, Bind.bind, Except.bind, Node.isDirectory] at h

/-- A directory that lists each name once. -/
theorem standsAt_of_list {names : List String} (h : disk.list dir = .ok names)
    (hdistinct : names.Nodup) :
    ∃ place, StandsAt dir place disk ∧ disk.namesAt place = names := by
  obtain ⟨place, hlocate, hd, hnames⟩ := isDirectoryAt_of_list h
  exact ⟨place, ⟨hlocate, hd, by rwa [hnames]⟩, hnames⟩

/-- The bytes of a file are read exactly if a file with those bytes stands there. -/
theorem read_join_eq_ok (hs : StandsAt dir place disk) (hn : IsFileName name) {bytes : ByteArray} :
    disk.read (dir.join name) = .ok bytes ↔
      name.utf8ByteSize ≤ nameLimit ∧
        ∃ number time, disk.children place name = some (.file number bytes time) := by
  rw [read, stat_join hs hn]
  split
  · next hlong =>
    simp only [Bind.bind, Except.bind, reduceCtorEq, false_iff]
    omega
  · next hsize =>
    have hle : name.utf8ByteSize ≤ nameLimit := by omega
    cases disk.children place name with
    | none => simp [Bind.bind, Except.bind]
    | some node =>
      cases node <;>
        simp [Bind.bind, Except.bind, pure, Except.pure, throw, throwThe, MonadExceptOf.throw, hle]

/-- Bytes are the text that they encode, and no other. -/
theorem fromUTF8?_eq_some {bytes : ByteArray} {text : String} :
    String.fromUTF8? bytes = some text ↔ bytes = text.toByteArray := by
  unfold String.fromUTF8?
  constructor
  · intro h
    split at h
    · rw [Option.some.injEq] at h
      rw [← h]
      rfl
    · cases h
  · rintro rfl
    rw [dif_pos text.isValidUTF8]
    rfl

/-- A text is read from a file exactly if the file has its bytes. -/
theorem readText_eq_ok {path : Path} {text : String} :
    disk.readText path = .ok text ↔ disk.read path = .ok text.toByteArray := by
  rw [readText]
  cases h : disk.read path with
  | error e => simp [Bind.bind, Except.bind]
  | ok bytes =>
    have := @fromUTF8?_eq_some bytes text
    simp only [Bind.bind, Except.bind, pure, Except.pure, throw, throwThe, MonadExceptOf.throw]
    cases hb : String.fromUTF8? bytes <;> simp_all

/-! ## Writing -/

/-- Writing a file in a directory, by the table of the directory. -/
theorem run_write_join (hs : StandsAt dir place disk) (hn : IsFileName name)
    (update : ByteArray → ByteArray) :
    (write (dir.join name) update).run disk =
      if nameLimit < name.utf8ByteSize then (.error .nameTooLong, disk)
      else match disk.children place name with
        | some (.file number bytes _) =>
          (.ok (), disk.put (place ++ [name]) (.file number (update bytes) disk.clock))
        | some (.directory _) => (.error .isDirectory, disk)
        | some .socket => (.error .noDevice, disk)
        | none =>
          (.ok (), (({ disk with nextFile := disk.nextFile + 1 } : Disk).put (place ++ [name])
            (.file disk.nextFile (update .empty) disk.clock)).stamp place) := by
  obtain ⟨time, hd⟩ := hs.isDirectory
  have hlook := (run_look (·.locate (dir.join name)) disk)
  rw [locate_join hs.located hs.isDirectory hn] at hlook
  rw [write, run_bind_of_ok (run_get disk)]
  by_cases hsize : nameLimit < name.utf8ByteSize
  · rw [if_pos hsize] at hlook ⊢
    exact run_bind_of_error hlook _
  · rw [if_neg hsize] at hlook ⊢
    rw [run_bind_of_ok hlook, children]
    cases h : disk.get? (place ++ [name]) with
    | none => simp [namesDirectory_join hs.text_ne hn, hd]
    | some node => cases node <;> simp [namesDirectory_join hs.text_ne hn]

/-- Writing a file that is there or new leaves it with other bytes. -/
theorem write_ok (hs : StandsAt dir place disk) (hn : IsFileName name)
    {update : ByteArray → ByteArray} (h : (write (dir.join name) update).run disk = (.ok (), next)) :
    name.utf8ByteSize ≤ nameLimit ∧ ∃ number,
      (∀ node, disk.children place name = some node → ∃ bytes time, node = .file number bytes time) ∧
      Turns place disk next (Function.update (disk.children place) name
        (some (.file number (update (bytesIn (disk.children place name))) disk.clock))) := by
  rw [run_write_join hs hn] at h
  split at h
  · cases h
  · next hsize =>
    refine ⟨by omega, ?_⟩
    split at h
    · next number bytes time hfile =>
      cases h
      have hdir : ∀ t, disk.children place name ≠ some (.directory t) := by simp [hfile]
      refine ⟨number, ?_, ?_⟩
      · rintro node hnode
        rw [hfile, Option.some.injEq] at hnode
        exact ⟨bytes, time, hnode.symm⟩
      · have := turns_put hdir (.file number (update bytes) disk.clock)
        rwa [hfile] at *
    · cases h
    · cases h
    · next hnone =>
      cases h
      refine ⟨disk.nextFile, by simp [hnone], ?_⟩
      have hdir : ∀ t, ({ disk with nextFile := disk.nextFile + 1 } : Disk).children place name
          ≠ some (.directory t) := fun t ht => by
        have : disk.children place name = some (.directory t) := ht
        simp [hnone] at this
      have hput := (turns_put hdir (.file disk.nextFile (update .empty) disk.clock)).stamp
      rw [hnone]
      exact ⟨hput.grows, hput.distinct, hput.children⟩

/-- A file that is written anew has only the new bytes. -/
theorem create_ok (hs : StandsAt dir place disk) (hn : IsFileName name) {bytes : ByteArray}
    (h : (create (dir.join name) bytes).run disk = (.ok (), next)) :
    ∃ number, Turns place disk next (Function.update (disk.children place) name
      (some (.file number bytes disk.clock))) := by
  rw [create] at h
  obtain ⟨-, number, -, hturns⟩ := write_ok hs hn h
  exact ⟨number, hturns⟩

/-- The time of a file changes, and nothing else. -/
theorem setModified_ok (hs : StandsAt dir place disk) (hn : IsFileName name) {time : Timestamp}
    (h : (setModified (dir.join name) time).run disk = (.ok (), next)) :
    ∃ number bytes old, disk.children place name = some (.file number bytes old) ∧
      Turns place disk next (Function.update (disk.children place) name
        (some (.file number bytes time))) := by
  rw [setModified, run_bind, run_get] at h
  simp only [run_bind, run_look] at h
  by_cases hsize : name.utf8ByteSize ≤ nameLimit
  · cases hc : disk.children place name with
    | none => rw [find_join_of_none hs hn hsize hc] at h; cases h
    | some node =>
      rw [find_join_of_children hs hn hsize hc] at h
      cases node with
      | directory t => cases h
      | socket => cases h
      | file number bytes old =>
        cases h
        have hdir : ∀ t, disk.children place name ≠ some (.directory t) := by simp [hc]
        exact ⟨number, bytes, old, rfl, turns_put hdir _⟩
  · rw [find_join_of_long hs hn (by omega)] at h
    cases h

/-! ## Removing and renaming -/

/-- Removing a file of a directory, by the table of the directory. -/
theorem run_removeFile_join (hs : StandsAt dir place disk) (hn : IsFileName name) :
    (removeFile (dir.join name)).run disk =
      if nameLimit < name.utf8ByteSize then (.error .nameTooLong, disk)
      else match disk.children place name with
        | none => (.error .noEntry, disk)
        | some (.directory _) => (.error .isDirectory, disk)
        | some _ => (.ok (), (disk.erase (place ++ [name])).stamp place) := by
  rw [removeFile, run_bind_of_ok (run_get disk)]
  have hlook := run_look (·.find (dir.join name)) disk
  by_cases hsize : nameLimit < name.utf8ByteSize
  · rw [find_join_of_long hs hn hsize] at hlook
    rw [if_pos hsize]
    exact run_bind_of_error hlook _
  · rw [if_neg hsize]
    cases hc : disk.children place name with
    | none =>
      rw [find_join_of_none hs hn (by omega) hc] at hlook
      exact run_bind_of_error hlook _
    | some node =>
      rw [find_join_of_children hs hn (by omega) hc] at hlook
      rw [run_bind_of_ok hlook]
      cases node <;> simp

/-- Removing a file takes it out of the table, and nothing else. -/
theorem removeFile_ok (hs : StandsAt dir place disk) (hn : IsFileName name)
    (h : (removeFile (dir.join name)).run disk = (.ok (), next)) :
    Turns place disk next (Function.update (disk.children place) name none) := by
  rw [run_removeFile_join hs hn] at h
  split at h
  · cases h
  · split at h
    · cases h
    · cases h
    · next hdir hc =>
      cases h
      exact (turns_erase fun t ht => by rw [hc, Option.some.injEq] at ht; exact hdir t ht).stamp

/-- Giving a file another name puts it in the place of what had that name, and changes
nothing else. -/
theorem rename_ok (hs : StandsAt dir place disk) {old new : String} (ho : IsFileName old)
    (hn : IsFileName new) (hne : old ≠ new)
    (hfile : ∀ node, disk.children place old = some node → node.isDirectory = false)
    (h : (rename (dir.join old) (dir.join new)).run disk = (.ok (), next)) :
    new.utf8ByteSize ≤ nameLimit ∧ ∃ node, disk.children place old = some node ∧
      Turns place disk next (Function.update (Function.update (disk.children place) old none)
        new (some node)) := by
  obtain ⟨time, hd⟩ := hs.isDirectory
  rw [rename, run_bind_of_ok (run_get disk)] at h
  have hfind := run_look (·.find (dir.join old)) disk
  have hlocate := run_look (·.locate (dir.join new)) disk
  by_cases hsize : old.utf8ByteSize ≤ nameLimit
  · cases hc : disk.children place old with
    | none =>
      rw [find_join_of_none hs ho hsize hc] at hfind
      rw [run_bind_of_error hfind] at h
      cases h
    | some node =>
      have hnode := hfile node hc
      rw [find_join_of_children hs ho hsize hc] at hfind
      rw [run_bind_of_ok hfind] at h
      rw [locate_join hs.located hs.isDirectory hn] at hlocate
      by_cases hlong : nameLimit < new.utf8ByteSize
      · rw [if_pos hlong] at hlocate
        rw [run_bind_of_error hlocate] at h
        cases h
      · rw [if_neg hlong] at hlocate
        rw [run_bind_of_ok hlocate, if_neg (concat_inj.not.mpr hne)] at h
        simp only [hnode, List.dropLast_concat, hd, namesDirectory_join hs.text_ne hn,
          Bool.false_and, Bool.false_eq_true, if_false, Bool.not_false, if_true] at h
        have hturns (hdir : ∀ t, disk.children place new ≠ some (.directory t)) :=
          (turns_rename hne hc hnode hdir).stamp.stamp
        refine ⟨by omega, node, rfl, ?_⟩
        rw [children] at hturns
        cases hnew : disk.get? (place ++ [new]) with
        | none =>
          rw [hnew] at h
          cases h
          exact hturns (by simp [hnew])
        | some other =>
          rw [hnew] at h
          cases other with
          | directory t => cases h
          | socket =>
            cases h
            exact hturns (by simp [hnew])
          | file number bytes t =>
            cases h
            exact hturns (by simp [hnew])
  · rw [find_join_of_long hs ho (by omega)] at hfind
    rw [run_bind_of_error hfind] at h
    cases h

end EventLog.Disk
