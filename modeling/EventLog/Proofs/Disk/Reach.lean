import EventLog.Disk.Basic
import Mathlib.Data.List.Infix

/-!
# EventLog.Proofs.Disk.Reach

Which places can be walked to, and that this stays so.

A directory is reachable if every directory above it is there.  A disk grows
into another one if whatever was reachable still is (`Grows`); then every path
that led to a place leads to the same place (`locate_of_grows`).  All changes of
files grow the disk, and so does a new directory.
-/

namespace EventLog.Disk

/-! ## What stands at a place -/

@[simp] theorem get?_put_self (disk : Disk) (place : Place) (node : Node) :
    (disk.put place node).get? place = some node := by
  simp [get?, put]

/-- Filtering out one place leaves the others. -/
theorem lookup_filter_of_ne {place other : Place} (h : other ≠ place) (nodes : List (Place × Node)) :
    (nodes.filter (·.1 != place)).lookup other = nodes.lookup other := by
  induction nodes with
  | nil => rfl
  | cons entry nodes ih =>
    obtain ⟨p, node⟩ := entry
    by_cases hp : p = place
    · have hother : (other == p) = false := by simp [hp, h]
      simp [hp, ih, List.lookup_cons, hp ▸ hother]
    · simp [hp, List.lookup_cons, ih]

/-- Storing changes no other place. -/
@[simp] theorem get?_put_of_ne {place other : Place} (h : other ≠ place) (disk : Disk)
    (node : Node) : (disk.put place node).get? other = disk.get? other := by
  have hother : (other == place) = false := by simp [h]
  simp only [get?, put, List.lookup_cons, hother, lookup_filter_of_ne h]

/-- An emptied place is empty. -/
@[simp] theorem get?_erase_self (disk : Disk) (place : Place) :
    (disk.erase place).get? place = none := by
  rw [get?, erase, List.lookup_eq_none_iff]
  intro entry hentry
  have hne : entry.1 ≠ place := by simpa using (List.mem_filter.mp hentry).2
  exact bne_iff_ne.mpr (Ne.symm hne)

@[simp] theorem get?_erase_of_ne {place other : Place} (h : other ≠ place) (disk : Disk) :
    (disk.erase place).get? other = disk.get? other :=
  lookup_filter_of_ne h disk.nodes

/-- A directory stands at a place. -/
def IsDirectoryAt (disk : Disk) (place : Place) : Prop :=
  ∃ time, disk.get? place = some (.directory time)

/-- Stamping makes no directory, and removes none. -/
theorem isDirectoryAt_stamp {disk : Disk} {place other : Place} :
    (disk.stamp place).IsDirectoryAt other ↔ disk.IsDirectoryAt other := by
  unfold stamp
  split
  · next time h =>
    by_cases ho : other = place
    · subst ho; simp [IsDirectoryAt, h]
    · simp [IsDirectoryAt, ho]
  · rfl

/-- Stamping changes no other place. -/
theorem get?_stamp_of_ne {place other : Place} (h : other ≠ place) (disk : Disk) :
    (disk.stamp place).get? other = disk.get? other := by
  unfold stamp
  split
  · exact get?_put_of_ne h _ _
  · rfl

/-! ## Reachable places -/

/-- Directories stand at a place and at all places above it. -/
def Reachable (disk : Disk) (place : Place) : Prop :=
  ∀ above, above <+: place → disk.IsDirectoryAt above

/-- Directories stand at all places above a place. -/
def Open (disk : Disk) (place : Place) : Prop :=
  ∀ above, above <+: place → above ≠ place → disk.IsDirectoryAt above

/-- A directory that is in reach is one. -/
theorem Reachable.isDirectoryAt {disk : Disk} {place : Place} (h : disk.Reachable place) :
    disk.IsDirectoryAt place := h place List.prefix_rfl

theorem Reachable.mono {disk : Disk} {place above : Place} (h : disk.Reachable place)
    (ha : above <+: place) : disk.Reachable above := fun q hq => h q (hq.trans ha)

/-- An open place with a directory is in reach. -/
theorem Open.reachable {disk : Disk} {place : Place} (h : disk.Open place)
    (hd : disk.IsDirectoryAt place) : disk.Reachable place := fun q hq => by
  by_cases hne : q = place
  · exact hne ▸ hd
  · exact h q hq hne

/-- Places right below a directory in reach are open. -/
theorem Reachable.open_concat {disk : Disk} {place : Place} (h : disk.Reachable place)
    (name : String) : disk.Open (place ++ [name]) := fun q hq hne => by
  rcases List.prefix_concat_iff.mp hq with rfl | hq
  · exact absurd rfl hne
  · exact h q hq

/-- Whatever could be reached still can. -/
def Grows (disk next : Disk) : Prop := ∀ place, disk.Reachable place → next.Reachable place

theorem Grows.refl (disk : Disk) : Grows disk disk := fun _ h => h

theorem Grows.trans {disk next last : Disk} (h : Grows disk next) (h' : Grows next last) :
    Grows disk last := fun place hp => h' place (h place hp)

/-- A disk grows if its directories stay directories. -/
theorem grows_of_isDirectoryAt {disk next : Disk}
    (h : ∀ place, disk.IsDirectoryAt place → next.IsDirectoryAt place) : Grows disk next :=
  fun _ hp q hq => h q (hp q hq)

theorem grows_stamp (disk : Disk) (place : Place) : Grows disk (disk.stamp place) :=
  grows_of_isDirectoryAt fun _ h => isDirectoryAt_stamp.mpr h

/-- Storing something where no directory stands puts none out of reach. -/
theorem grows_put {disk : Disk} {place : Place} (h : ¬ disk.IsDirectoryAt place) (node : Node) :
    Grows disk (disk.put place node) := by
  refine grows_of_isDirectoryAt fun other ⟨time, ho⟩ => ?_
  have hne : other ≠ place := fun e => h ⟨time, e ▸ ho⟩
  exact ⟨time, by rw [get?_put_of_ne hne, ho]⟩

/-- Emptying a place without a directory puts none out of reach. -/
theorem grows_erase {disk : Disk} {place : Place} (h : ¬ disk.IsDirectoryAt place) :
    Grows disk (disk.erase place) := by
  refine grows_of_isDirectoryAt fun other ⟨time, ho⟩ => ?_
  have hne : other ≠ place := fun e => h ⟨time, e ▸ ho⟩
  exact ⟨time, by rw [get?_erase_of_ne hne, ho]⟩

/-! ## Walking -/

/-- A walk along a path is the walk along its front, and on from there. -/
theorem walk_append (disk : Disk) (place : Place) (front rest : List String) :
    disk.walk place (front ++ rest) = disk.walk place front >>= fun p => disk.walk p rest := by
  induction front generalizing place with
  | nil => rfl
  | cons name front ih =>
    simp only [List.cons_append, walk]
    split
    · split
      · rfl
      · split
        · exact ih _
        · split
          · exact ih _
          · exact ih _
    · rfl
    · rfl

/-- A walk from an open place ends at an open place. -/
theorem open_of_walk {disk : Disk} {place target : Place} {path : List String}
    (h : disk.walk place path = .ok target) (hp : disk.Open place) : disk.Open target := by
  induction path generalizing place with
  | nil =>
    simp only [walk, Except.ok.injEq] at h
    exact h ▸ hp
  | cons name path ih =>
    simp only [walk] at h
    split at h
    · next time hd =>
      have hr : disk.Reachable place := hp.reachable ⟨time, hd⟩
      split at h
      · cases h
      · split at h
        · exact ih h hp
        · split at h
          · exact ih h fun q hq _ => hr q (hq.trans (List.dropLast_prefix place))
          · exact ih h (hr.open_concat name)
    · cases h
    · cases h

/-- A walk from an open place goes the same way on a disk that has grown. -/
theorem walk_of_grows {disk next : Disk} (hg : Grows disk next) {place target : Place}
    {path : List String} (h : disk.walk place path = .ok target) (hp : disk.Open place) :
    next.walk place path = .ok target := by
  induction path generalizing place with
  | nil => exact h
  | cons name path ih =>
    simp only [walk] at h
    split at h
    · next time hd =>
      have hr : disk.Reachable place := hp.reachable ⟨time, hd⟩
      obtain ⟨time', hd'⟩ := (hg place hr).isDirectoryAt
      simp only [walk, hd']
      split at h
      · cases h
      · next hlong =>
        rw [if_neg hlong]
        split at h
        · next hdot => rw [if_pos hdot]; exact ih h hp
        · next hdot =>
          rw [if_neg hdot]
          split at h
          · next hup =>
            rw [if_pos hup]
            exact ih h fun q hq _ => hr q (hq.trans (List.dropLast_prefix place))
          · next hup => rw [if_neg hup]; exact ih h (hr.open_concat name)
    · cases h
    · cases h

theorem open_root (disk : Disk) : disk.Open [] := fun _ hq hne =>
  absurd (List.prefix_nil.mp hq) hne

/-- A path leads to open places only. -/
theorem open_of_locate {disk : Disk} {path : Path} {place : Place}
    (h : disk.locate path = .ok place) : disk.Open place := by
  unfold locate at h
  split at h
  · cases h
  · split at h
    · cases h
    · exact open_of_walk h disk.open_root

/-- A path leads to the same place on a disk that has grown. -/
theorem locate_of_grows {disk next : Disk} (hg : Grows disk next) {path : Path} {place : Place}
    (h : disk.locate path = .ok place) : next.locate path = .ok place := by
  unfold locate at h ⊢
  split at h
  · cases h
  · next hempty =>
    rw [if_neg hempty]
    split at h
    · cases h
    · next hnul => rw [if_neg hnul]; exact walk_of_grows hg h disk.open_root

end EventLog.Disk
