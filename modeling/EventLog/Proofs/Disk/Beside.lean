import EventLog.Proofs.Disk.Path

/-!
# EventLog.Proofs.Disk.Beside

A file and the one beside it, whose path has another extension.

* `Path.EndsIn`: a path ends in a name, so it can name a file;
* `Path.EndsIn.beside`: with another extension it ends in another name behind the
  same segments;
* `locate_endsIn`: so both lead to the same directory;
* `locate_parent`: and that, or one above it, is what the path without its name leads to.
-/

namespace EventLog

namespace Path

/-- A path ends in a name that can be one of a file. -/
structure EndsIn (path : Path) (front : List (List Char)) (name : List Char) : Prop where
  segments_eq : path.segments = front ++ [name]
  isName : name ≠ [] ∧ name ≠ ['.'] ∧ name ≠ ['.', '.']

variable {path other : Path} {front : List (List Char)} {name : List Char}

/-- A path that can name a file ends in a name. -/
theorem exists_endsIn (h : Disk.namesDirectory path = false) :
    ∃ front name, path.EndsIn front name := by
  have hne : path.segments ≠ [] := Text.fields_ne_nil '/' path.text.toList
  refine ⟨path.segments.dropLast, path.segments.getLast hne,
    (List.dropLast_append_getLast hne).symm, ?_⟩
  rw [Disk.namesDirectory, List.getLast?_eq_some_getLast hne] at h
  simpa [and_assoc] using h

namespace EndsIn

theorem slash_not_mem (h : path.EndsIn front name) :
    (∀ segment ∈ front, '/' ∉ segment) ∧ '/' ∉ name := by
  have hall : ∀ segment ∈ front ++ [name], '/' ∉ segment := fun segment hm =>
    Text.not_mem_of_mem_fields (h.segments_eq.symm ▸ hm : segment ∈ path.segments)
  rw [List.forall_mem_append, List.forall_mem_singleton] at hall
  exact hall

/-- All segments of such a path mean something. -/
theorem reach_eq (h : path.EndsIn front name) :
    reach path.isAbsolute path.segments = front.length + 1 := by
  have hlast : isMeaningful path.isAbsolute front.length name = true := by
    simp [isMeaningful, h.isName]
  simp [reach, h.segments_eq, List.zipIdx_append, List.filter_append, hlast]

/-- The last segment names the file. -/
theorem fileName?_eq (h : path.EndsIn front name) : path.fileName? = some (String.ofList name) := by
  rw [fileName?, h.reach_eq]
  simp [h.segments_eq, h.isName]

theorem parent?_eq (h : path.EndsIn front name) : path.parent? = some (path.upTo front.length) := by
  rw [parent?, h.reach_eq]

/-- The path is its segments, joined by slashes. -/
theorem toList_text (h : path.EndsIn front name) :
    path.text.toList = Text.joined '/' (front ++ [name]) := by
  rw [← h.segments_eq]
  exact (Text.joined_fields '/' path.text.toList).symm

/-- A path is known by its segments. -/
theorem eq (h : path.EndsIn front name) (h' : other.EndsIn front name) : path = other := by
  have htext : path.text = other.text :=
    String.toList_inj.mp (h.toList_text.trans h'.toList_text.symm)
  cases path
  exact congrArg Path.mk htext

end EndsIn

/-- A stem has no characters but those of the name. -/
theorem mem_stem {c : Char} (h : c ∈ stem name) : c = '.' ∨ c ∈ name := by
  unfold stem at h
  split at h
  · exact .inr h
  · split at h
    · exact .inr h
    · rcases Text.mem_joined h with rfl | ⟨field, hfield, hc⟩
      · exact .inl rfl
      · exact .inr (Text.mem_of_mem_fields (List.mem_of_mem_dropLast hfield) hc)

/-- The path with another extension ends in another name behind the same segments. -/
theorem EndsIn.beside (h : path.EndsIn front name) {extension : String}
    (hslash : '/' ∉ extension.toList) (hlength : 1 < extension.toList.length) :
    (path.withExtension extension).EndsIn front (stem name ++ '.' :: extension.toList) := by
  have hname : '/' ∉ stem name ++ '.' :: extension.toList := by
    rw [List.mem_append, List.mem_cons]
    rintro (hm | hm | hm)
    · rcases mem_stem hm with hdot | hm
      · exact absurd hdot (by decide)
      · exact h.slash_not_mem.2 hm
    · exact absurd hm (by decide)
    · exact hslash hm
  have hlong (short : List Char) (hshort : short.length < 3) :
      stem name ++ '.' :: extension.toList ≠ short := fun e => by
    have := congrArg List.length e
    rw [List.length_append, List.length_cons] at this
    omega
  refine ⟨?_, hlong _ (by decide), hlong _ (by decide), hlong _ (by decide)⟩
  have hfront : path.segments.take (reach path.isAbsolute path.segments - 1) = front := by
    rw [h.reach_eq, Nat.add_sub_cancel, h.segments_eq, List.take_left]
  rw [withExtension, h.fileName?_eq]
  simp only [hfront]
  rw [segments, String.toList_ofList, String.toList_ofList]
  refine Text.fields_joined (List.append_ne_nil_of_right_ne_nil front (List.cons_ne_nil _ _))
    fun segment hm => ?_
  rcases List.mem_append.mp hm with hm | hm
  · exact h.slash_not_mem.1 segment hm
  · exact List.mem_singleton.mp hm ▸ hname

/-! ## Names along a path -/

/-- The names that segments are walked along as. -/
def namesOf (segments : List (List Char)) : List String :=
  (segments.filter (!·.isEmpty)).map String.ofList

/-- The names that such a path walks along are its segments. -/
theorem names_of_endsIn (h : path.EndsIn front name) :
    Disk.names path = namesOf front ++ [String.ofList name] := by
  have hname : [name].filter (!·.isEmpty) = [name] := by simp [h.isName.1]
  rw [Disk.names, h.segments_eq, List.filter_append, hname, List.map_append]
  rfl

/-- The path of some segments walks along them, or stops before some that mean nothing. -/
theorem names_upTo (path : Path) (count : Nat) :
    Disk.names (path.upTo count) <+: namesOf (path.segments.take count) := by
  rw [upTo]
  cases hreach : reach path.isAbsolute (path.segments.take count) with
  | zero =>
    have hroot : Disk.names ⟨if path.isAbsolute then "/" else ""⟩ = [] := by
      cases path.isAbsolute <;> decide
    exact hroot ▸ List.nil_prefix
  | succ n =>
    have hne : (path.segments.take count).take (n + 1) ≠ [] := fun e => by
      have hnil : path.segments.take count = [] := by simpa using e
      rw [hnil] at hreach
      cases hreach
    have hsegments : (Path.mk (String.ofList
        (Text.joined '/' ((path.segments.take count).take (n + 1))))).segments
          = (path.segments.take count).take (n + 1) := by
      rw [segments, String.toList_ofList]
      exact Text.fields_joined hne fun segment hm => Text.not_mem_of_mem_fields
        (List.mem_of_mem_take (List.mem_of_mem_take hm))
    change Disk.names (Path.mk (String.ofList
      (Text.joined '/' ((path.segments.take count).take (n + 1))))) <+: _
    rw [Disk.names, hsegments, namesOf]
    exact ((List.take_prefix _ _).filter _).map _

/-- A part of a path has no other characters than the path. -/
theorem mem_text_upTo {count : Nat} {c : Char} (h : c ∈ (path.upTo count).text.toList) :
    c = '/' ∨ c ∈ path.text.toList := by
  rw [upTo] at h
  cases hreach : reach path.isAbsolute (path.segments.take count) with
  | zero =>
    rw [hreach] at h
    cases habsolute : path.isAbsolute <;> simp [habsolute] at h
    exact .inl h
  | succ n =>
    rw [hreach] at h
    simp only [String.toList_ofList] at h
    rcases Text.mem_joined h with rfl | ⟨segment, hm, hc⟩
    · exact .inl rfl
    · exact .inr (Text.mem_of_mem_fields (List.mem_of_mem_take (List.mem_of_mem_take hm)) hc)

end Path

namespace Disk

open EventLog.Path

variable {disk : Disk} {path other : Path} {place : Place} {front : List (List Char)}
  {name : List Char}

/-- A place that a walk goes on from is a directory. -/
theorem walk_append_cons {place target : Place} {first rest : List String} {next : String}
    (h : disk.walk place (first ++ next :: rest) = .ok target) :
    ∃ middle, disk.walk place first = .ok middle ∧ disk.IsDirectoryAt middle ∧
      disk.walk middle (next :: rest) = .ok target := by
  rw [walk_append] at h
  obtain ⟨middle, hfirst, hrest⟩ : ∃ middle, disk.walk place first = .ok middle ∧
      disk.walk middle (next :: rest) = .ok target := by
    cases hwalk : disk.walk place first with
    | error e => rw [hwalk] at h; cases h
    | ok middle => rw [hwalk] at h; exact ⟨middle, rfl, h⟩
  refine ⟨middle, hfirst, ?_, hrest⟩
  rw [walk] at hrest
  split at hrest
  · next time hd => exact ⟨time, hd⟩
  · cases hrest
  · cases hrest

/-- The place of a path is where its names lead to from the root. -/
theorem walk_of_locate (h : disk.locate path = .ok place) :
    disk.walk [] (names path) = .ok place := by
  have hnul := nul_not_mem_of_locate h
  rw [locate, if_neg (text_ne_of_locate h), if_neg (by simpa using hnul)] at h
  exact h

/-- A path that ends in a name leads to a place just below a directory. -/
theorem locate_endsIn (hp : path.EndsIn front name) (h : disk.locate path = .ok place) :
    ∃ directory, disk.walk [] (namesOf front) = .ok directory ∧ disk.IsDirectoryAt directory ∧
      place = directory ++ [String.ofList name] := by
  have hwalk := walk_of_locate h
  rw [names_of_endsIn hp] at hwalk
  obtain ⟨directory, hfront, ⟨time, hd⟩, hlast⟩ := walk_append_cons hwalk
  refine ⟨directory, hfront, ⟨time, hd⟩, ?_⟩
  have hname (text : String) (ht : name ≠ text.toList) : String.ofList name ≠ text := fun e =>
    ht (by rw [← e, String.toList_ofList])
  rw [walk, hd, if_neg (hname "." hp.isName.2.1), if_neg (hname ".." hp.isName.2.2)] at hlast
  dsimp only at hlast
  split at hlast
  · cases hlast
  · cases hlast
    rfl

/-- What the path without its name leads to is a directory. -/
theorem locate_parent (hp : path.EndsIn front name) (h : disk.locate path = .ok place) :
    (path.upTo front.length).text = "" ∨
      ∃ directory, disk.locate (path.upTo front.length) = .ok directory ∧
        disk.IsDirectoryAt directory := by
  by_cases hempty : (path.upTo front.length).text = ""
  · exact .inl hempty
  · have hprefix := names_upTo path front.length
    rw [hp.segments_eq, List.take_left] at hprefix
    obtain ⟨rest, hrest⟩ := hprefix
    have hwalk := walk_of_locate h
    rw [names_of_endsIn hp, ← hrest, List.append_assoc] at hwalk
    obtain ⟨next, others, hmore⟩ := List.exists_cons_of_ne_nil
      (List.append_ne_nil_of_right_ne_nil rest (List.cons_ne_nil (String.ofList name) []))
    rw [hmore] at hwalk
    obtain ⟨directory, hdirectory, hd, -⟩ := walk_append_cons hwalk
    have hnul : Char.ofNat 0 ∉ (path.upTo front.length).text.toList := fun hm => by
      rcases mem_text_upTo hm with hslash | hm
      · exact absurd hslash (by decide)
      · exact nul_not_mem_of_locate h hm
    refine .inr ⟨directory, ?_, hd⟩
    rw [locate, if_neg hempty, if_neg (by simpa using hnul)]
    exact hdirectory

end Disk

end EventLog
