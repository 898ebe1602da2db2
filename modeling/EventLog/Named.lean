/-!
# EventLog.Named

Values under names, each name once, in the order of the names.  Properties of
an object, entries of a dictionary and the fields of a log entry are kept this
way.

* `find?_insert_self`, `find?_insert_of_ne`: what an insertion changes.
-/

namespace EventLog.Named

variable {α : Type}

/-- Puts a value under a name, in place of the one that was there. -/
def insert (name : String) (value : α) : List (String × α) → List (String × α)
  | [] => [(name, value)]
  | (other, v) :: rest =>
    if name = other then (name, value) :: rest
    else if name < other then (name, value) :: (other, v) :: rest
    else (other, v) :: insert name value rest

def find? (name : String) : List (String × α) → Option α
  | [] => none
  | (other, v) :: rest => if name = other then some v else find? name rest

/-- Puts several values in, the later over the earlier. -/
def merge (entries new : List (String × α)) : List (String × α) :=
  new.foldl (fun all (name, value) => insert name value all) entries

/-- The named values of a list, the later over the earlier. -/
def ofList (entries : List (String × α)) : List (String × α) := merge [] entries

@[simp] theorem find?_insert_self (name : String) (value : α) (entries : List (String × α)) :
    find? name (insert name value entries) = some value := by
  induction entries with
  | nil => simp [insert, find?]
  | cons entry rest ih =>
    obtain ⟨other, v⟩ := entry
    by_cases h : name = other
    · simp [insert, find?, h]
    · by_cases hlt : name < other
      · simp [insert, find?, h, hlt]
      · simp [insert, find?, h, hlt, ih]

theorem find?_insert_of_ne {name other : String} (h : other ≠ name) (value : α)
    (entries : List (String × α)) :
    find? other (insert name value entries) = find? other entries := by
  induction entries with
  | nil => simp [insert, find?, h]
  | cons entry rest ih =>
    obtain ⟨key, v⟩ := entry
    by_cases hk : name = key
    · subst hk; simp [insert, find?, h]
    · by_cases hlt : name < key
      · simp [insert, find?, h, hk, hlt]
      · simp only [insert, find?, hk, hlt, if_false, ih]

end EventLog.Named
