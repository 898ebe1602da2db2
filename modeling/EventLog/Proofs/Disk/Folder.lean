import EventLog.Proofs.Disk.Path
import EventLog.Proofs.Step
import Mathlib.Data.List.Nodup
import Mathlib.Logic.Function.Basic

/-!
# EventLog.Proofs.Disk.Folder

A directory as a table: what stands in it under each name (`children`).

* `StandsAt`: a path leads to a directory that has each name once;
* `Turns`: a disk turns into one with another table for the directory, on which
  the path still leads there;
* `turns_put`, `turns_erase`, `turns_rename`: the table after a single change.
-/

namespace EventLog.Disk

/-- What stands in a directory under each name. -/
abbrev Table := String → Option Node

/-- The table of the directory at a place. -/
def children (disk : Disk) (place : Place) : Table := fun name => disk.get? (place ++ [name])

theorem concat_inj {place : Place} {name other : String} :
    place ++ [name] = place ++ [other] ↔ name = other := by simp

/-! ## Names -/

/-- The name in a directory that a place stands for. -/
def nameBelow (place other : Place) : Option String :=
  if other.dropLast = place then other.getLast? else none

/-- The names below a place are the last names of the places right below it. -/
theorem nameBelow_eq_some {place other : Place} {name : String} :
    nameBelow place other = some name ↔ other = place ++ [name] := by
  unfold nameBelow
  constructor
  · intro h
    split at h
    · next hd =>
      obtain ⟨front, rfl⟩ := List.getLast?_eq_some_iff.mp h
      simpa using hd
    · cases h
  · rintro rfl
    simp

/-- The names in a directory, by the places of the disk alone. -/
theorem namesAt_eq (disk : Disk) (place : Place) :
    disk.namesAt place = (disk.nodes.map (·.1)).filterMap (nameBelow place) := by
  rw [namesAt, List.filterMap_map]
  rfl

/-- A directory has the names under which something stands in it. -/
theorem mem_namesAt {disk : Disk} {place : Place} {name : String} :
    name ∈ disk.namesAt place ↔ (disk.children place name).isSome := by
  rw [namesAt_eq, children, get?, List.lookup_isSome_iff]
  simp only [List.mem_filterMap, List.mem_map, nameBelow_eq_some]
  constructor
  · rintro ⟨_, ⟨entry, hentry, rfl⟩, hplace⟩
    exact ⟨entry, hentry, by simp [hplace]⟩
  · rintro ⟨entry, hentry, hplace⟩
    exact ⟨entry.1, ⟨entry, hentry, rfl⟩, (beq_iff_eq.mp hplace).symm⟩

theorem map_filter_ne (nodes : List (Place × Node)) (place : Place) :
    (nodes.filter (·.1 != place)).map (·.1) = (nodes.map (·.1)).filter (· != place) := by
  rw [List.filter_map]
  rfl

/-- Putting a node somewhere adds no name twice. -/
theorem nodup_namesAt_put {disk : Disk} {place : Place} (h : (disk.namesAt place).Nodup)
    (other : Place) (node : Node) : ((disk.put other node).namesAt place).Nodup := by
  rw [namesAt_eq] at h ⊢
  have hrest := h.sublist ((List.filter_sublist (p := (· != other))).filterMap (nameBelow place))
  simp only [put, List.map_cons, map_filter_ne, List.filterMap_cons]
  cases hname : nameBelow place other with
  | none => exact hrest
  | some name =>
    refine List.nodup_cons.mpr ⟨?_, hrest⟩
    intro hm
    obtain ⟨p, hp, hpname⟩ := List.mem_filterMap.mp hm
    have hother : p = other :=
      (nameBelow_eq_some.mp hpname).trans (nameBelow_eq_some.mp hname).symm
    simp [hother] at hp

/-- Emptying a place brings no name twice. -/
theorem nodup_namesAt_erase {disk : Disk} {place : Place} (h : (disk.namesAt place).Nodup)
    (other : Place) : ((disk.erase other).namesAt place).Nodup := by
  rw [namesAt_eq] at h ⊢
  rw [erase, map_filter_ne]
  exact h.sublist (List.filter_sublist.filterMap _)

/-- Stamping a directory brings no name twice. -/
theorem nodup_namesAt_stamp {disk : Disk} {place : Place} (h : (disk.namesAt place).Nodup)
    (other : Place) : ((disk.stamp other).namesAt place).Nodup := by
  unfold stamp
  split
  · exact nodup_namesAt_put h _ _
  · exact h

/-! ## The directory of a path -/

/-- A path leads to a directory that has each name once. -/
structure StandsAt (dir : Path) (place : Place) (disk : Disk) : Prop where
  located : disk.locate dir = .ok place
  isDirectory : disk.IsDirectoryAt place
  distinct : (disk.namesAt place).Nodup

/-- A disk turns into one whose directory has another table; what could be
reached still can, and no name comes twice. -/
structure Turns (place : Place) (disk next : Disk) (table : Table) : Prop where
  grows : Grows disk next
  distinct : (disk.namesAt place).Nodup → (next.namesAt place).Nodup
  children : next.children place = table

/-- All directories that lead to a directory are there. -/
theorem StandsAt.reachable {dir : Path} {place : Place} {disk : Disk}
    (h : StandsAt dir place disk) : disk.Reachable place :=
  (open_of_locate h.located).reachable h.isDirectory

/-- The path of a directory still leads there on a disk that has grown. -/
theorem StandsAt.of_grows {dir : Path} {place : Place} {disk next : Disk}
    (h : StandsAt dir place disk) (hg : Grows disk next) (hd : (next.namesAt place).Nodup) :
    StandsAt dir place next :=
  ⟨locate_of_grows hg h.located, (hg place h.reachable).isDirectoryAt, hd⟩

theorem StandsAt.turn {dir : Path} {place : Place} {disk next : Disk}
    {table : Table} (h : StandsAt dir place disk)
    (ht : Turns place disk next table) : StandsAt dir place next :=
  h.of_grows ht.grows (ht.distinct h.distinct)

theorem StandsAt.text_ne {dir : Path} {place : Place} {disk : Disk} (h : StandsAt dir place disk) :
    dir.text ≠ "" := text_ne_of_locate h.located

theorem Turns.trans {place : Place} {disk next last : Disk} {table table' : Table}
    (h : Turns place disk next table) (h' : Turns place next last table') :
    Turns place disk last table' :=
  ⟨h.grows.trans h'.grows, fun hd => h'.distinct (h.distinct hd), h'.children⟩

theorem Turns.refl (place : Place) (disk : Disk) :
    Turns place disk disk (disk.children place) := ⟨Grows.refl disk, id, rfl⟩

/-! ## Single changes -/

variable {place : Place} {disk : Disk} {name : String}

theorem not_isDirectoryAt_of_children
    (h : ∀ time, disk.children place name ≠ some (.directory time)) :
    ¬ disk.IsDirectoryAt (place ++ [name]) := fun ⟨time, ht⟩ => h time ht

/-- Storing a node where no directory stands changes one entry of the table. -/
theorem turns_put (h : ∀ time, disk.children place name ≠ some (.directory time)) (node : Node) :
    Turns place disk (disk.put (place ++ [name]) node)
      (Function.update (disk.children place) name (some node)) where
  grows := grows_put (not_isDirectoryAt_of_children h) node
  distinct hd := nodup_namesAt_put hd _ _
  children := by
    funext other
    by_cases ho : other = name
    · subst ho; simp [children]
    · simp [children, ho, get?_put_of_ne (concat_inj.not.mpr ho)]

/-- Emptying a place where no directory stands takes one entry out of the table. -/
theorem turns_erase (h : ∀ time, disk.children place name ≠ some (.directory time)) :
    Turns place disk (disk.erase (place ++ [name]))
      (Function.update (disk.children place) name none) where
  grows := grows_erase (not_isDirectoryAt_of_children h)
  distinct hd := nodup_namesAt_erase hd _
  children := by
    funext other
    by_cases ho : other = name
    · subst ho; simp [children]
    · simp [children, ho, get?_erase_of_ne (concat_inj.not.mpr ho)]

/-- Stamping a directory leaves its table as it is. -/
theorem turns_stamp (place : Place) (disk : Disk) :
    Turns place disk (disk.stamp place) (disk.children place) where
  grows := grows_stamp disk place
  distinct hd := nodup_namesAt_stamp hd _
  children := by
    funext other
    have hne : place ++ [other] ≠ place := by simp
    exact get?_stamp_of_ne hne disk

/-- Stamping the directory changes nothing in it. -/
theorem Turns.stamp {next : Disk} {table : Table}
    (h : Turns place disk next table) : Turns place disk (next.stamp place) table :=
  h.trans (h.children ▸ turns_stamp place next)

/-! ## A new name -/

/-- The nodes of a disk after a file has got another name. -/
def renamed (disk : Disk) (old new : Place) : Disk :=
  { disk with nodes := (disk.erase new).nodes.map fun (p, n) => (moved old new p, n) }

/-- Places that were moved are looked up where they came from. -/
theorem lookup_map_moved {nodes : List (Place × Node)} {old new target source : Place}
    (h : ∀ p ∈ nodes.map (·.1), moved old new p = target ↔ p = source) :
    (nodes.map fun (p, n) => (moved old new p, n)).lookup target = nodes.lookup source := by
  induction nodes with
  | nil => rfl
  | cons entry nodes ih =>
    obtain ⟨p, node⟩ := entry
    simp only [List.map_cons, List.mem_cons, forall_eq_or_imp] at h
    obtain ⟨hp, hrest⟩ := h
    simp only [List.map_cons, List.lookup_cons, ih hrest]
    have hbeq : (target == moved old new p) = (source == p) := by
      rw [Bool.eq_iff_iff, beq_iff_eq, beq_iff_eq, eq_comm, hp, eq_comm]
    rw [hbeq]

theorem moved_of_not {old new place : Place} (h : ¬ old <+: place) : moved old new place = place := by
  rw [moved, if_neg (by rwa [List.isPrefixOf_iff_prefix])]

theorem moved_append (old new rest : Place) : moved old new (old ++ rest) = new ++ rest := by
  rw [moved, if_pos (by simp [List.isPrefixOf_iff_prefix]), List.drop_left]

/-- Only what stood at or below the old place moves to or below the new one. -/
theorem moved_eq_iff {old new target p : Place} (htarget : ¬ old <+: target)
    (hnew : ¬ new <+: target) : moved old new p = target ↔ p = target := by
  by_cases hold : old <+: p
  · obtain ⟨rest, rfl⟩ := hold
    rw [moved_append]
    constructor
    · rintro rfl
      exact absurd (List.prefix_append new rest) hnew
    · rintro rfl
      exact absurd (List.prefix_append old rest) htarget
  · rw [moved_of_not hold]

/-- Giving a place another name changes only what lies below the old or the new one. -/
theorem get?_renamed_of_not {old new target : Place} (htarget : ¬ old <+: target)
    (hnew : ¬ new <+: target) : (disk.renamed old new).get? target = disk.get? target := by
  have hne : target ≠ new := fun e => hnew (e ▸ List.prefix_rfl)
  rw [get?, renamed, lookup_map_moved fun _ _ => moved_eq_iff htarget hnew]
  exact get?_erase_of_ne hne disk

theorem not_prefix_concat {name other : String} (h : name ≠ other) :
    ¬ place ++ [name] <+: place ++ [other] := by
  rw [List.prefix_append_right_inj, List.cons_prefix_cons]
  exact fun e => h e.1

theorem not_prefix_of_reachable
    (h : ∀ time, disk.children place name ≠ some (.directory time)) {other : Place}
    (ho : disk.Reachable other) : ¬ place ++ [name] <+: other :=
  fun hp => not_isDirectoryAt_of_children h (ho _ hp)

/-- The names below a directory when one of them was replaced by another. -/
theorem nameBelow_moved {old new : String} {p : Place} (hp : p ≠ place ++ [new]) :
    nameBelow place (moved (place ++ [old]) (place ++ [new]) p)
      = (nameBelow place p).map fun name => if name = old then new else name := by
  by_cases hold : place ++ [old] <+: p
  · obtain ⟨rest, rfl⟩ := hold
    rw [moved_append]
    cases rest with
    | nil =>
      have hold : nameBelow place (place ++ [old]) = some old := nameBelow_eq_some.mpr rfl
      have hnew : nameBelow place (place ++ [new]) = some new := nameBelow_eq_some.mpr rfl
      simp [hold, hnew]
    | cons next rest =>
      have hnone (name : String) : nameBelow place (place ++ [name] ++ next :: rest) = none := by
        rw [Option.eq_none_iff_forall_ne_some]
        intro found hfound
        simpa using congrArg List.length (nameBelow_eq_some.mp hfound)
      rw [hnone, hnone]
      rfl
  · rw [moved_of_not hold]
    cases hname : nameBelow place p with
    | none => rfl
    | some name =>
      have hne : name ≠ old := by
        rintro rfl
        exact hold ((nameBelow_eq_some.mp hname) ▸ List.prefix_rfl)
      simp [hne]

/-- Giving a file another name brings no name twice. -/
theorem nodup_namesAt_renamed (h : (disk.namesAt place).Nodup) (old new : String) :
    ((disk.renamed (place ++ [old]) (place ++ [new])).namesAt place).Nodup := by
  have hrest := nodup_namesAt_erase h (place ++ [new])
  have hnew : new ∉ (disk.erase (place ++ [new])).namesAt place := by
    rw [mem_namesAt, children, get?_erase_self]
    simp
  have hnames : (disk.renamed (place ++ [old]) (place ++ [new])).namesAt place
      = ((disk.erase (place ++ [new])).namesAt place).map
          fun name => if name = old then new else name := by
    rw [namesAt_eq, namesAt_eq, renamed, List.map_map, List.filterMap_map, List.map_filterMap,
      List.filterMap_map]
    refine List.filterMap_congr fun entry hentry => ?_
    have hne : entry.1 ≠ place ++ [new] := by simpa using (List.mem_filter.mp hentry).2
    exact nameBelow_moved hne
  rw [hnames]
  refine hrest.map_on fun name hname other hother heq => ?_
  have hne {found : String} (hf : found ∈ (disk.erase (place ++ [new])).namesAt place) :
      found ≠ new := fun e => hnew (e ▸ hf)
  have := hne hname
  have := hne hother
  split at heq <;> split at heq <;> simp_all

/-- A file that gets another name stands under the new one, and no longer under the old. -/
theorem turns_rename {old new : String} (hne : old ≠ new) {node : Node}
    (hold : disk.children place old = some node) (hfile : node.isDirectory = false)
    (hnew : ∀ time, disk.children place new ≠ some (.directory time)) :
    Turns place disk (disk.renamed (place ++ [old]) (place ++ [new]))
      (Function.update (Function.update (disk.children place) old none) new (some node)) where
  grows p hp q hq := by
    have hq' := hp.mono hq
    have hold' : ∀ time, disk.children place old ≠ some (.directory time) := by
      rintro time ht
      rw [hold, Option.some.injEq] at ht
      simp [ht, Node.isDirectory] at hfile
    obtain ⟨time, ht⟩ := hp q hq
    exact ⟨time, by rw [get?_renamed_of_not (not_prefix_of_reachable hold' hq')
      (not_prefix_of_reachable hnew hq'), ht]⟩
  distinct hd := nodup_namesAt_renamed hd old new
  children := by
    funext other
    by_cases hon : other = new
    · subst hon
      have hback : ∀ p ∈ (disk.erase (place ++ [other])).nodes.map (·.1),
          moved (place ++ [old]) (place ++ [other]) p = place ++ [other] ↔ p = place ++ [old] := by
        intro p hp
        have hpne : p ≠ place ++ [other] := by
          obtain ⟨entry, hentry, rfl⟩ := List.mem_map.mp hp
          simpa using (List.mem_filter.mp hentry).2
        by_cases hprefix : place ++ [old] <+: p
        · obtain ⟨rest, rfl⟩ := hprefix
          rw [moved_append]
          simp
        · rw [moved_of_not hprefix]
          exact ⟨fun e => absurd e hpne, fun e => absurd (e ▸ List.prefix_rfl) hprefix⟩
      rw [Function.update_self, children, get?, renamed, lookup_map_moved hback]
      exact (get?_erase_of_ne (concat_inj.not.mpr hne) disk).trans hold
    · rw [Function.update_of_ne hon]
      by_cases hoo : other = old
      · subst hoo
        rw [Function.update_self, children, get?, renamed, List.lookup_eq_none_iff]
        rintro ⟨p, n⟩ hp
        obtain ⟨⟨q, m⟩, -, heq⟩ := List.mem_map.mp hp
        simp only [Prod.mk.injEq] at heq
        have hmoved : p ≠ place ++ [other] := by
          rw [← heq.1]
          by_cases hprefix : place ++ [other] <+: q
          · obtain ⟨rest, rfl⟩ := hprefix
            rw [moved_append]
            simp [Ne.symm hne]
          · rw [moved_of_not hprefix]
            exact fun e => hprefix (e ▸ List.prefix_rfl)
        simpa [bne_iff_ne] using Ne.symm hmoved
      · rw [Function.update_of_ne hoo]
        exact get?_renamed_of_not (not_prefix_concat (Ne.symm hoo)) (not_prefix_concat (Ne.symm hon))

end EventLog.Disk
