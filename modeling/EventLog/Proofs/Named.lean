import EventLog.Named

/-!
# EventLog.Proofs.Named

Values under names, in the order of the names.

* `ofList_of_sorted`: entries in the order of their names stay as they are;
* `sorted_ofList`: whatever is put in, the names are in order and each is there once;
* `find?_merge`: the value under a name is the one that was put in last (`lastOf?`);
* `mem_iff_find?`: the entries are the names with the values under them.
-/

namespace EventLog.Named

variable {α : Type}

/-- Entries in the order of their names, each name once. -/
def Sorted (entries : List (String × α)) : Prop := entries.Pairwise (·.1 < ·.1)

instance (entries : List (String × α)) : Decidable (Sorted entries) :=
  inferInstanceAs (Decidable (List.Pairwise _ _))

/-- An entry behind all others in the order is put at the end. -/
theorem insert_of_lt {name : String} {entries : List (String × α)}
    (h : ∀ entry ∈ entries, entry.1 < name) (value : α) :
    insert name value entries = entries ++ [(name, value)] := by
  induction entries with
  | nil => rfl
  | cons entry entries ih =>
    obtain ⟨hlt, hrest⟩ := List.forall_mem_cons.mp h
    have hne : name ≠ entry.1 := fun heq => String.lt_irrefl name (heq ▸ hlt)
    have hnot : ¬ name < entry.1 := fun hgt => String.lt_irrefl name (String.lt_trans hgt hlt)
    rw [insert, if_neg hne, if_neg hnot, ih hrest, List.cons_append]

/-- Entries that are in order already are put behind one another. -/
theorem merge_of_sorted {entries new : List (String × α)} (h : Sorted (entries ++ new)) :
    merge entries new = entries ++ new := by
  induction new generalizing entries with
  | nil => simp [merge]
  | cons entry new ih =>
    have hbefore : ∀ other ∈ entries, other.1 < entry.1 := fun other hother =>
      (List.pairwise_append.mp h).2.2 other hother entry (.head _)
    have hstep : merge entries (entry :: new) = merge (insert entry.1 entry.2 entries) new := rfl
    rw [hstep, insert_of_lt hbefore, ih (by rwa [List.append_assoc, List.singleton_append]),
      List.append_assoc, List.singleton_append]

/-- **Entries that are in order** are put in as they are. -/
theorem ofList_of_sorted {entries : List (String × α)} (h : Sorted entries) :
    ofList entries = entries := merge_of_sorted h

/-! ## What is put in -/

/-- What an insertion leaves was there before, or is the new entry. -/
theorem of_mem_insert {name : String} {value : α} {entries : List (String × α)}
    {entry : String × α} (h : entry ∈ insert name value entries) :
    entry = (name, value) ∨ entry ∈ entries := by
  induction entries with
  | nil => exact .inl (List.mem_singleton.mp h)
  | cons first entries ih =>
    rw [insert] at h
    split at h
    · exact (List.mem_cons.mp h).imp_right (List.mem_cons_of_mem _)
    split at h
    · exact List.mem_cons.mp h
    · rcases List.mem_cons.mp h with rfl | h
      · exact .inr List.mem_cons_self
      · exact (ih h).imp_right (List.mem_cons_of_mem _)

/-- An insertion keeps the order. -/
theorem sorted_insert {entries : List (String × α)} (h : Sorted entries) (name : String)
    (value : α) : Sorted (insert name value entries) := by
  induction entries with
  | nil => exact List.pairwise_singleton _ _
  | cons first entries ih =>
    obtain ⟨hfirst, hrest⟩ := List.pairwise_cons.mp h
    rw [insert]
    split
    · next hname => exact List.pairwise_cons.mpr ⟨fun entry hm => hname ▸ hfirst entry hm, hrest⟩
    split
    · next hlt =>
      refine List.pairwise_cons.mpr ⟨fun entry hm => ?_, h⟩
      rcases List.mem_cons.mp hm with rfl | hm
      · exact hlt
      · exact String.lt_trans hlt (hfirst entry hm)
    · next hne hnot =>
      have hlt : first.1 < name := Decidable.byContradiction fun hge =>
        hne (String.le_antisymm (String.not_lt.mp hge) (String.not_lt.mp hnot))
      refine List.pairwise_cons.mpr ⟨fun entry hm => ?_, ih hrest⟩
      rcases of_mem_insert hm with rfl | hm
      · exact hlt
      · exact hfirst entry hm

/-- Merging keeps the order, whatever the new entries are. -/
theorem sorted_merge {entries : List (String × α)} (h : Sorted entries)
    (new : List (String × α)) : Sorted (merge entries new) := by
  induction new generalizing entries with
  | nil => exact h
  | cons entry new ih => exact ih (sorted_insert h entry.1 entry.2)

/-- Whatever is put in, the names are in order and each is there once. -/
theorem sorted_ofList (new : List (String × α)) : Sorted (ofList new) :=
  sorted_merge .nil new

theorem merge_ofList (entries new : List (String × α)) :
    merge (ofList entries) new = ofList (entries ++ new) :=
  List.foldl_append.symm

/-- The value that a list gives last to a name. -/
def lastOf? (name : String) (entries : List (String × α)) : Option α :=
  entries.reverse.lookup name

/-- The last value of a name, by the rest of the list and its first entry. -/
theorem lastOf?_cons (name : String) (entry : String × α) (entries : List (String × α)) :
    lastOf? name (entry :: entries) =
      (lastOf? name entries).or (if name = entry.1 then some entry.2 else none) := by
  rw [lastOf?, List.reverse_cons, List.lookup_append, lastOf?, List.lookup_cons, List.lookup_nil]
  by_cases h : name = entry.1
  · rw [if_pos h, beq_iff_eq.mpr h]
  · rw [if_neg h, beq_eq_false_iff_ne.mpr h]

/-- The value under a name behind an insertion. -/
theorem find?_insert (name other : String) (value : α) (entries : List (String × α)) :
    find? other (insert name value entries) =
      if other = name then some value else find? other entries := by
  split
  · next h => rw [h, find?_insert_self]
  · next h => exact find?_insert_of_ne h value entries

/-- The value under a name is the one that was put in last, or the one that was there. -/
theorem find?_merge (name : String) (entries new : List (String × α)) :
    find? name (merge entries new) = (lastOf? name new).or (find? name entries) := by
  induction new generalizing entries with
  | nil => rfl
  | cons entry new ih =>
    have hstep : merge entries (entry :: new) = merge (insert entry.1 entry.2 entries) new := rfl
    rw [hstep, ih, find?_insert, lastOf?_cons]
    cases lastOf? name new with
    | some value => rfl
    | none => by_cases h : name = entry.1 <;> simp [h]

/-- A name is found with the value that the list gives it last. -/
theorem find?_ofList (name : String) (new : List (String × α)) :
    find? name (ofList new) = lastOf? name new := by
  rw [ofList, find?_merge]
  exact Option.or_none

/-- The entries are the names with the values under them. -/
theorem mem_iff_find? {entries : List (String × α)} (h : Sorted entries) {name : String}
    {value : α} : (name, value) ∈ entries ↔ find? name entries = some value := by
  induction entries with
  | nil => exact iff_of_false List.not_mem_nil fun hfind => by cases hfind
  | cons first entries ih =>
    obtain ⟨hfirst, hrest⟩ := List.pairwise_cons.mp h
    rw [List.mem_cons, find?]
    split
    · next hname =>
      have hnot : (name, value) ∉ entries := fun hm =>
        String.lt_irrefl name (lt_of_eq_of_lt hname (hfirst (name, value) hm))
      rw [or_iff_left hnot, Option.some.injEq, Prod.ext_iff]
      exact ⟨fun heq => heq.2.symm, fun heq => ⟨hname, heq.symm⟩⟩
    · next hname =>
      have hne : (name, value) ≠ first := fun heq => hname (congrArg Prod.fst heq)
      rw [or_iff_right hne, ih hrest]

end EventLog.Named
