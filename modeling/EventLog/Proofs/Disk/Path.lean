import EventLog.Proofs.Text
import EventLog.Proofs.Disk.Reach

/-!
# EventLog.Proofs.Disk.Path

Paths of the files of a directory.  A plain file name joined to a path leads to
a place just below the one that the path leads to (`locate_join`), and is found
again as the path's file name (`fileName?_join`).
-/

namespace EventLog

/-- A text that can be the name of a file in a directory. -/
def IsFileName (name : String) : Prop :=
  name ≠ "" ∧ name ≠ "." ∧ name ≠ ".." ∧ '/' ∉ name.toList ∧ Char.ofNat 0 ∉ name.toList

instance (name : String) : Decidable (IsFileName name) := inferInstanceAs (Decidable (_ ∧ _))

namespace IsFileName

variable {name : String}

theorem slash_not_mem (h : IsFileName name) : '/' ∉ name.toList := h.2.2.2.1

theorem nul_not_mem (h : IsFileName name) : Char.ofNat 0 ∉ name.toList := h.2.2.2.2

theorem toList_ne (h : IsFileName name) :
    name.toList ≠ [] ∧ name.toList ≠ ['.'] ∧ name.toList ≠ ['.', '.'] := by
  obtain ⟨hempty, hdot, hdots, -⟩ := h
  refine ⟨fun e => hempty ?_, fun e => hdot ?_, fun e => hdots ?_⟩ <;>
    exact String.toList_inj.mp (by rw [e]; rfl)

end IsFileName

namespace Path

/-- The segments of a file in a directory: those of the directory, less an
empty one behind its last slash, and the name. -/
theorem segments_join {dir : Path} (hdir : dir.text ≠ "") {name : String} (h : IsFileName name) :
    ∃ front, (dir.join name).segments = front ++ [name.toList] ∧
      (dir.segments = front ∨ dir.segments = front ++ [[]]) := by
  have hrelative : (Path.mk name).isAbsolute = false := by
    have hne : name.toList.head? ≠ some '/' := fun e =>
      h.slash_not_mem (List.mem_of_mem_head? e)
    simpa [isAbsolute] using hne
  have hname := Text.fields_of_not_mem h.slash_not_mem
  by_cases hslash : dir.text.toList.getLast? = some '/'
  · obtain ⟨front, hfront⟩ := List.getLast?_eq_some_iff.mp hslash
    refine ⟨Text.fields '/' front, ?_, .inr ?_⟩
    · simp [join, hrelative, segments, hfront, List.append_assoc, Text.fields_append_sep, hname]
    · simp [segments, hfront, Text.fields_append_sep]
  · refine ⟨dir.segments, ?_, .inl rfl⟩
    simp [join, hrelative, hslash, hdir, segments, List.append_assoc, Text.fields_append_sep,
      hname]

/-- The path of a file in a directory is not empty. -/
theorem text_join_ne {dir : Path} {name : String} (h : IsFileName name) :
    (dir.join name).text ≠ "" := by
  have hne : name ≠ "" := h.1
  unfold join
  split
  · exact hne
  · split <;> simp [hne]

/-- Joining a name to a directory brings no zero character. -/
theorem nul_not_mem_join {dir : Path} (hdir : Char.ofNat 0 ∉ dir.text.toList) {name : String}
    (h : IsFileName name) : Char.ofNat 0 ∉ (dir.join name).text.toList := by
  have hname := h.nul_not_mem
  have hsep : Char.ofNat 0 ≠ '/' := by decide
  unfold join
  split
  · exact hname
  · split <;> simp [hdir, hname, hsep]

/-- The file name of a file in a directory. -/
theorem fileName?_join {dir : Path} (hdir : dir.text ≠ "") {name : String} (h : IsFileName name) :
    (dir.join name).fileName? = some name := by
  obtain ⟨front, hsegments, -⟩ := segments_join hdir h
  obtain ⟨hempty, hdot, hdots⟩ := h.toList_ne
  have hreach (absolute : Bool) : reach absolute (front ++ [name.toList]) = front.length + 1 := by
    have hlast : isMeaningful absolute front.length name.toList = true := by
      simp [isMeaningful, hempty, hdot]
    simp [reach, List.zipIdx_append, List.filter_append, hlast]
  rw [fileName?, hsegments, hreach]
  simp [hdot, hdots]

end Path

namespace Disk

/-- The names of a file's path are those of its directory, and its own. -/
theorem names_join {dir : Path} (hdir : dir.text ≠ "") {name : String} (h : IsFileName name) :
    names (dir.join name) = names dir ++ [name] := by
  obtain ⟨front, hsegments, hfront⟩ := Path.segments_join hdir h
  have hname : [name.toList].filter (!·.isEmpty) = [name.toList] := by
    simp [h.toList_ne.1]
  rcases hfront with hfront | hfront <;>
    simp [names, hsegments, hfront, hname, List.filter_append]

/-- The path of a file in a directory does not ask for a directory. -/
theorem namesDirectory_join {dir : Path} (hdir : dir.text ≠ "") {name : String}
    (h : IsFileName name) : namesDirectory (dir.join name) = false := by
  obtain ⟨front, hsegments, -⟩ := Path.segments_join hdir h
  simp [namesDirectory, hsegments, h.toList_ne]

/-- The empty path leads nowhere. -/
theorem text_ne_of_locate {disk : Disk} {path : Path} {place : Place}
    (h : disk.locate path = .ok place) : path.text ≠ "" := by
  rintro hempty
  simp [locate, hempty] at h

/-- A path with a zero character leads nowhere. -/
theorem nul_not_mem_of_locate {disk : Disk} {path : Path} {place : Place}
    (h : disk.locate path = .ok place) : Char.ofNat 0 ∉ path.text.toList := by
  intro hnul
  simp [locate, text_ne_of_locate h, hnul] at h

/-- A file of a directory has its place just below that of the directory. -/
theorem locate_join {disk : Disk} {dir : Path} {place : Place} (hdir : disk.locate dir = .ok place)
    (hd : disk.IsDirectoryAt place) {name : String} (h : IsFileName name) :
    disk.locate (dir.join name) =
      if nameLimit < name.utf8ByteSize then .error .nameTooLong else .ok (place ++ [name]) := by
  have htext := text_ne_of_locate hdir
  have hnul := nul_not_mem_of_locate hdir
  obtain ⟨time, hd⟩ := hd
  have hwalk : disk.walk [] (names dir) = .ok place := by
    simpa [locate, htext, hnul] using hdir
  have hstep : disk.walk place [name] =
      if nameLimit < name.utf8ByteSize then .error .nameTooLong else .ok (place ++ [name]) := by
    simp [walk, hd, h.2.1, h.2.2.1]
  rw [locate, if_neg (Path.text_join_ne h), if_neg (by simpa using Path.nul_not_mem_join hnul h),
    names_join htext h, walk_append, hwalk]
  exact hstep

end Disk

end EventLog
