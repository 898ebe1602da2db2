import EventLog.Proofs.Store.Table

/-!
# EventLog.Proofs.Store.Rotation

What adding a line does to the directory of a log.

* `rotate_ok`: every file gets the next number, and the oldest goes (`Rotated`);
* `writeLine_ok`: the line stands at the end of the active file, behind those
  that it had, or alone if it was moved on.
-/

namespace EventLog.StoreConfig

open Disk (StandsAt Turns Table)
open Step

variable {config : StoreConfig} {place : Place} {disk next : Disk}

/-- The number of files fits a word of the machine. -/
def HasWord (config : StoreConfig) : Prop := config.maxFiles < Text.wordLimit

theorem nameAt_ne {m n : Nat} (hm : m < Text.wordLimit) (hn : n < Text.wordLimit) (h : m ≠ n) :
    config.nameAt m ≠ config.nameAt n := (nameAt_inj hm hn).not.mpr h

/-! ## One file -/

theorem Readable.update_none {table : Table} (hr : config.Readable table) (name : String) :
    config.Readable (Function.update table name none) := by
  intro other hother node hnode
  by_cases he : other = name
  · simp [he] at hnode
  · exact hr other hother node (by rwa [Function.update_of_ne he] at hnode)

theorem Readable.update_some {table : Table} (hr : config.Readable table) {name : String}
    {node : Node} (ht : IsTextFile name node) :
    config.Readable (Function.update table name (some node)) := by
  intro other hother found hfound
  by_cases he : other = name
  · subst he
    rw [Function.update_self, Option.some.injEq] at hfound
    exact hfound ▸ ht
  · exact hr other hother found (by rwa [Function.update_of_ne he] at hfound)

/-- A file of the log is there if the directory has it. -/
theorem Readable.has_eq (hs : StandsAt config.directory place disk)
    (hlog : IsFileName config.logName) (hr : config.Readable (disk.children place)) {name : String}
    (hname : config.IsLogFile name) :
    disk.has (config.directory.join name) = (disk.children place name).isSome := by
  refine Disk.has_join hs (isFileName_of_isLogFile hlog hname) fun hsome => ?_
  obtain ⟨node, hnode⟩ := Option.isSome_iff_exists.mp hsome
  exact (hr name hname node hnode).fits

/-- A file of the log that gets another name. -/
theorem renameLogFile_ok (hs : StandsAt config.directory place disk)
    (hlog : IsFileName config.logName) (hr : config.Readable (disk.children place))
    {old new : String} (ho : config.IsLogFile old) (hn : config.IsLogFile new) (hne : old ≠ new)
    {blamed : Path}
    (h : (StoreM.at blamed (Disk.rename (config.directory.join old)
      (config.directory.join new))).run disk = (.ok (), next)) :
    ∃ node, disk.children place old = some node ∧ IsTextFile new node ∧
      Turns place disk next (Function.update (Function.update (disk.children place) old none)
        new (some node)) := by
  have hfile (node : Node) (hnode : disk.children place old = some node) :
      node.isDirectory = false := (hr old ho node hnode).isDirectory
  obtain ⟨hfits, node, hnode, hturns⟩ := Disk.rename_ok hs (isFileName_of_isLogFile hlog ho)
    (isFileName_of_isLogFile hlog hn) hne hfile (run_at_eq_ok.mp h)
  exact ⟨node, hnode, ⟨hfits, (hr old ho node hnode).text⟩, hturns⟩

/-! ## All files but the active one -/

/-- Each of the files from 1 to `n` has the next number. -/
structure Shifted (config : StoreConfig) (n : Nat) (table table' : Table) : Prop where
  moved : ∀ j, 1 ≤ j → j ≤ n → table' (config.nameAt (j + 1)) = table (config.nameAt j)
  first : table' (config.nameAt 1) = none
  other : ∀ name, (∀ j, 1 ≤ j → j ≤ n + 1 → name ≠ config.nameAt j) → table' name = table name

/-- A shift that succeeded moves one file up by a number. -/
theorem shift_ok {n : Nat} (hlimit : n + 1 < Text.wordLimit)
    (hs : StandsAt config.directory place disk) (hlog : IsFileName config.logName)
    (hr : config.Readable (disk.children place))
    (hgap : disk.children place (config.nameAt (n + 1)) = none)
    (h : (config.shift n).run disk = (.ok (), next)) :
    ∃ table, Turns place disk next table ∧ config.Readable table ∧
      config.Shifted n (disk.children place) table := by
  induction n generalizing disk with
  | zero =>
    cases h
    refine ⟨_, Turns.refl place _, hr, ?_, hgap, fun _ _ => rfl⟩
    intro j h1 h0
    omega
  | succ n ih =>
    have hold : config.IsLogFile (config.nameAt (n + 1)) := isLogFile_nameAt config (by omega)
    have hnew : config.IsLogFile (config.nameAt (n + 2)) := isLogFile_nameAt config hlimit
    have hne : config.nameAt (n + 1) ≠ config.nameAt (n + 2) :=
      nameAt_ne (by omega) hlimit (by omega)
    have hhas := Readable.has_eq hs hlog hr hold
    -- Whether or not the file is there, it has gone to the next number afterwards.
    obtain ⟨middle, table, hturns, hreadable, hgone, hmoved, hrest, hrun⟩ :
        ∃ middle table, Turns place disk middle table ∧ config.Readable table ∧
          table (config.nameAt (n + 1)) = none ∧
          table (config.nameAt (n + 2)) = disk.children place (config.nameAt (n + 1)) ∧
          (∀ name, name ≠ config.nameAt (n + 1) → name ≠ config.nameAt (n + 2) →
            table name = disk.children place name) ∧
          (config.shift n).run middle = (.ok (), next) := by
      rw [shift, run_bind_of_ok (run_get disk)] at h
      by_cases hthere : disk.has (config.rotatedFile (n + 1)) = true
      · rw [if_pos hthere, run_bind_eq_ok] at h
        obtain ⟨_, middle, hrename, hrun⟩ := h
        obtain ⟨node, hnode, htext, hturns⟩ := renameLogFile_ok hs hlog hr hold hnew hne hrename
        refine ⟨middle, _, hturns, (hr.update_none _).update_some htext, ?_, ?_, ?_, hrun⟩
        · rw [Function.update_of_ne hne, Function.update_self]
        · rw [Function.update_self, hnode]
        · intro name ho hn
          rw [Function.update_of_ne hn, Function.update_of_ne ho]
      · rw [if_neg hthere] at h
        have hnone : disk.children place (config.nameAt (n + 1)) = none := by
          rw [← Option.not_isSome_iff_eq_none, ← hhas]
          exact hthere
        exact ⟨disk, _, Turns.refl place disk, hr, hnone, hgap.trans hnone.symm,
          fun _ _ _ => rfl, h⟩
    obtain ⟨last, hlast, hread, hshift⟩ := ih (by omega) (hs.turn hturns)
      (hturns.children ▸ hreadable) (hturns.children ▸ hgone) hrun
    rw [hturns.children] at hshift
    refine ⟨last, hturns.trans hlast, hread, ?_, hshift.first, ?_⟩
    · intro j h1 hj
      rcases Nat.lt_or_ge n j with hlt | hle
      · obtain rfl : j = n + 1 := by omega
        rw [hshift.other _ fun i _ hi => nameAt_ne (by omega) (by omega) (by omega), hmoved]
      · rw [hshift.moved j h1 hle, hrest _ (nameAt_ne (by omega) (by omega) (by omega))
          (nameAt_ne (by omega) (by omega) (by omega))]
    · intro name hname
      rw [hshift.other name fun j h1 hj => hname j h1 (by omega),
        hrest name (hname _ (by omega) (by omega)) (hname _ (by omega) (by omega))]

/-! ## All files -/

/-- Every file has the next number, and the last one is gone. -/
structure Rotated (config : StoreConfig) (table table' : Table) : Prop where
  moved : ∀ j, j + 1 < config.maxFiles → table' (config.nameAt (j + 1)) = table (config.nameAt j)
  active : table' config.logName = none
  other : ∀ name, (∀ j, j < max config.maxFiles 1 → name ≠ config.nameAt j) →
    table' name = table name

/-- **Rotation moves every file on** and drops the oldest. -/
theorem rotate_ok (hword : config.HasWord)
    (hs : StandsAt config.directory place disk) (hlog : IsFileName config.logName)
    (hr : config.Readable (disk.children place))
    (h : config.rotate.run disk = (.ok (), next)) :
    ∃ table, Turns place disk next table ∧ config.Readable table ∧
      config.Rotated (disk.children place) table := by
  have hlimit : config.maxFiles < Text.wordLimit := hword
  rw [rotate] at h
  cases hkeep : config.maxFiles - 1 with
  | zero =>
    rw [hkeep] at h
    refine ⟨_, removeIfPresent_ok hs hlog h, hr.update_none _, ?_, Function.update_self _ _ _, ?_⟩
    · intro j hj
      omega
    · intro name hname
      exact Function.update_of_ne (hname 0 (by omega)) _ _
  | succ keep =>
    rw [hkeep] at h
    have hlast : config.IsLogFile (config.nameAt (keep + 1)) := isLogFile_nameAt config (by omega)
    have hfirst : config.IsLogFile (config.nameAt 1) := isLogFile_nameAt config (by omega)
    have hactive : config.IsLogFile (config.nameAt 0) := isLogFile_nameAt config (by omega)
    have hzero {j : Nat} (hj : j ≤ keep + 1) (h0 : j ≠ 0) :
        config.nameAt 0 ≠ config.nameAt j := nameAt_ne (by omega) (by omega) (Ne.symm h0)
    obtain ⟨_, disk₁, hremove, h⟩ := run_bind_eq_ok.mp h
    obtain ⟨_, disk₂, hshift, h⟩ := run_bind_eq_ok.mp h
    have hturns₁ := removeIfPresent_ok hs (isFileName_of_isLogFile hlog hlast) hremove
    have hs₁ := hs.turn hturns₁
    obtain ⟨table, hturns₂, hread, hshifted⟩ := shift_ok (by omega) hs₁ hlog
      (hturns₁.children ▸ hr.update_none _) (by rw [hturns₁.children, Function.update_self]) hshift
    rw [hturns₁.children] at hshifted
    obtain ⟨node, hnode, htext, hturns₃⟩ := renameLogFile_ok (hs₁.turn hturns₂) hlog
      (hturns₂.children ▸ hread) hactive hfirst (hzero (by omega) (by omega)) h
    rw [hturns₂.children] at hnode hturns₃
    refine ⟨_, (hturns₁.trans hturns₂).trans hturns₃, (hread.update_none _).update_some htext,
      ?_, ?_, ?_⟩
    · intro j hj
      rcases Nat.eq_zero_or_pos j with rfl | hpos
      · rw [Function.update_self, ← hnode, hshifted.other _ fun i _ hi => hzero hi (by omega),
          Function.update_of_ne (hzero le_rfl (by omega))]
      · rw [Function.update_of_ne (nameAt_ne (by omega) (by omega) (by omega)),
          Function.update_of_ne (hzero (by omega) (by omega)).symm,
          hshifted.moved j hpos (by omega),
          Function.update_of_ne (nameAt_ne (by omega) (by omega) (by omega))]
    · exact (Function.update_of_ne (hzero (by omega) (by omega)) _ _).trans
        (Function.update_self _ _ _)
    · intro name hname
      rw [Function.update_of_ne (hname 1 (by omega)), Function.update_of_ne (hname 0 (by omega)),
        hshifted.other name fun j _ hj => hname j (by omega),
        Function.update_of_ne (hname _ (by omega))]

/-! ## One more line -/

/-- The active file has to be moved on before a line is added. -/
def IsFull (config : StoreConfig) (table : Table) : Prop :=
  0 < config.maxFileBytes ∧
    ∃ node, table config.logName = some node ∧ config.maxFileBytes ≤ node.size

/-- There is room for a line: a full active file was moved on. -/
def MakesRoom (config : StoreConfig) (table table' : Table) : Prop :=
  ¬ config.IsFull table ∧ table' = table ∨ config.IsFull table ∧ config.Rotated table table'

/-- A rotation that succeeded makes room in the active file. -/
theorem rotateIfFull_ok (hword : config.HasWord)
    (hs : StandsAt config.directory place disk) (hlog : IsFileName config.logName)
    (hr : config.Readable (disk.children place))
    (h : config.rotateIfFull.run disk = (.ok (), next)) :
    ∃ table, Turns place disk next table ∧ config.Readable table ∧
      config.MakesRoom (disk.children place) table := by
  have hsame (hfull : ¬ config.IsFull (disk.children place)) (hnext : next = disk) :
      ∃ table, Turns place disk next table ∧ config.Readable table ∧
        config.MakesRoom (disk.children place) table :=
    ⟨_, hnext ▸ Turns.refl place disk, hr, .inl ⟨hfull, rfl⟩⟩
  rw [rotateIfFull] at h
  by_cases hzero : config.maxFileBytes = 0
  · rw [if_pos hzero] at h
    cases h
    exact hsame (fun hfull => by have := hfull.1; omega) rfl
  · rw [if_neg hzero, run_bind_of_ok (run_get disk), activeFile, Disk.stat_join hs hlog] at h
    by_cases hsize : Disk.nameLimit < config.logName.utf8ByteSize
    · rw [if_pos hsize] at h
      cases h
    · rw [if_neg hsize] at h
      cases hactive : disk.children place config.logName with
      | none =>
        rw [hactive] at h
        cases h
        exact hsame (fun ⟨_, node, hnode, _⟩ => by simp [hactive] at hnode) rfl
      | some node =>
        simp only [hactive] at h
        by_cases hfull : config.maxFileBytes ≤ node.size
        · rw [if_pos hfull] at h
          obtain ⟨table, hturns, hread, hrotated⟩ := rotate_ok hword hs hlog hr h
          exact ⟨table, hturns, hread, .inr ⟨⟨by omega, node, hactive, hfull⟩, hrotated⟩⟩
        · rw [if_neg hfull] at h
          cases h
          refine hsame (fun ⟨_, found, hfound, hle⟩ => hfull ?_) rfl
          rw [hactive, Option.some.injEq] at hfound
          exact hfound ▸ hle

/-- **A line is added** at the end of the active file, which is moved on before if it is full. -/
theorem writeLine_ok (hword : config.HasWord)
    (hs : StandsAt config.directory place disk) (hlog : IsFileName config.logName)
    (hr : config.Readable (disk.children place)) {line : List Char}
    (h : (config.writeLine line).run disk = (.ok (), next)) :
    ∃ table text number time, config.MakesRoom (disk.children place) table ∧
      config.Readable table ∧ HasText (table config.logName) text ∧
      config.logName.utf8ByteSize ≤ Disk.nameLimit ∧
      Turns place disk next (Function.update table config.logName
        (some (.file number (bytesOf (text ++ (line ++ ['\n']))) time))) := by
  obtain ⟨_, middle, hrotate, hwrite⟩ := run_bind_eq_ok.mp h
  obtain ⟨table, hturns, hread, hroom⟩ := rotateIfFull_ok hword hs hlog hr hrotate
  obtain ⟨text, htext⟩ := hread.hasText (isLogFile_logName config)
  obtain ⟨hfits, number, -, hwritten⟩ := Disk.write_ok (hs.turn hturns) hlog (run_at_eq_ok.mp hwrite)
  rw [hturns.children, htext.bytesIn_eq, bytesOf_append] at hwritten
  exact ⟨table, text, number, middle.clock, hroom, hread, htext, hfits, hturns.trans hwritten⟩

end EventLog.StoreConfig
