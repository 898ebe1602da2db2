/-!
# EventLog.Text.Fields

Texts cut at a separator.  Log lines are cut at spaces and commas, signal
names and patterns at colons, paths at slashes and files at line feeds; all
of them go through `fields`.

* `fields sep text` is never empty, and no field holds the separator
  (`not_mem_of_mem_fields`);
* `joined_fields`: putting the separator back between the fields gives the
  text again;
* `fields_append`: a field in front of a separator is read off whole.
-/

namespace EventLog.Text

/-- The text up to the first separator, and the fields behind it. -/
def cut (sep : Char) : List Char → List Char × List (List Char)
  | [] => ([], [])
  | c :: rest =>
    let (first, others) := cut sep rest
    if c = sep then ([], first :: others) else (c :: first, others)

/-- The fields of a text; a text without the separator is one field. -/
def fields (sep : Char) (text : List Char) : List (List Char) :=
  (cut sep text).1 :: (cut sep text).2

/-- Fields put together again, with a separator between neighbours. -/
def joined (sep : Char) : List (List Char) → List Char
  | [] => []
  | [field] => field
  | field :: rest => field ++ sep :: joined sep rest

/-- The text before and behind the first separator, if there is one. -/
def cutOnce? (sep : Char) : List Char → Option (List Char × List Char)
  | [] => none
  | c :: rest =>
    if c = sep then some ([], rest)
    else (cutOnce? sep rest).map fun (before, behind) => (c :: before, behind)

/-- The text behind the last separator; all of it if there is none. -/
def lastField (sep : Char) (text : List Char) : List Char :=
  (fields sep text).getLast (by simp [fields])

/-! ## Fields and separators -/

@[simp] theorem fields_nil (sep : Char) : fields sep [] = [[]] := rfl

@[simp] theorem fields_ne_nil (sep : Char) (text : List Char) : fields sep text ≠ [] := by
  simp [fields]

theorem fields_cons_self (sep : Char) (rest : List Char) :
    fields sep (sep :: rest) = [] :: fields sep rest := by
  simp [fields, cut]

theorem fields_cons_of_ne {sep c : Char} (h : c ≠ sep) (rest : List Char) :
    fields sep (c :: rest) = (c :: (cut sep rest).1) :: (cut sep rest).2 := by
  simp [fields, cut, h]

/-- A field in front of a separator is read off whole. -/
theorem fields_append {sep : Char} {field : List Char} (h : sep ∉ field) (rest : List Char) :
    fields sep (field ++ sep :: rest) = field :: fields sep rest := by
  induction field with
  | nil => exact fields_cons_self sep rest
  | cons c field ih =>
    have hc : c ≠ sep := fun e => h (e ▸ List.mem_cons_self)
    have := ih (fun m => h (List.mem_cons_of_mem c m))
    simp only [fields, List.cons.injEq] at this
    simp [List.cons_append, fields, cut, hc, this]

/-- A text without the separator is one field. -/
theorem fields_of_not_mem {sep : Char} {text : List Char} (h : sep ∉ text) :
    fields sep text = [text] := by
  induction text with
  | nil => rfl
  | cons c text ih =>
    have hc : c ≠ sep := fun e => h (e ▸ List.mem_cons_self)
    have := ih (fun m => h (List.mem_cons_of_mem c m))
    simp only [fields, List.cons.injEq] at this
    simp [fields, cut, hc, this]

/-- No field holds the separator. -/
theorem not_mem_of_mem_fields {sep : Char} {text field : List Char}
    (h : field ∈ fields sep text) : sep ∉ field := by
  induction text generalizing field with
  | nil => simp [fields, cut] at h; simp [h]
  | cons c rest ih =>
    by_cases hc : c = sep
    · subst hc
      rw [fields_cons_self, List.mem_cons] at h
      rcases h with rfl | h
      · simp
      · exact ih h
    · rw [fields_cons_of_ne hc, List.mem_cons] at h
      rcases h with rfl | h
      · have := @ih (cut sep rest).1 (by simp [fields])
        simp [this, Ne.symm hc]
      · exact ih (by simp [fields, h])

/-- Putting the separator back between the fields gives the text again. -/
theorem joined_fields (sep : Char) (text : List Char) :
    joined sep (fields sep text) = text := by
  induction text with
  | nil => rfl
  | cons c rest ih =>
    by_cases hc : c = sep
    · subst hc
      rw [fields_cons_self]
      simp only [fields] at ih ⊢
      simp [joined, ih]
    · rw [fields_cons_of_ne hc]
      simp only [fields] at ih
      cases h : (cut sep rest).2 with
      | nil => rw [h] at ih; simpa [joined] using ih
      | cons f fs => rw [h] at ih; simpa [joined] using ih

theorem cutOnce?_append {sep : Char} {field : List Char} (h : sep ∉ field) (rest : List Char) :
    cutOnce? sep (field ++ sep :: rest) = some (field, rest) := by
  induction field with
  | nil => simp [cutOnce?]
  | cons c field ih =>
    have hc : c ≠ sep := fun e => h (e ▸ List.mem_cons_self)
    simp [cutOnce?, hc, ih (fun m => h (List.mem_cons_of_mem c m))]

end EventLog.Text
