import EventLog.Proofs.Disk.Path
import EventLog.Store.Basic
import Mathlib.Data.List.Nodup

/-!
# EventLog.Proofs.Store.Names

The names of the files of a log.

* `nameAt`: the active file and those that it was moved to, by their numbers;
* `isFileName_of_isLogFile`: every file of a log has a plain name;
* `not_isLogFile_draftName`: a draft is never a file of the log;
* `filesAmong_eq`: the files are found in the order of their numbers;
* `filesAmong_cons_logName`: the active file is found first.
-/

namespace EventLog.StoreConfig

variable {config : StoreConfig} {name : String} {n : Nat}

/-- The name of the file with a number: 0 is the active file. -/
def nameAt (config : StoreConfig) : Nat → String
  | 0 => config.logName
  | n + 1 => config.rotatedName (n + 1)

@[simp] theorem nameAt_zero (config : StoreConfig) : config.nameAt 0 = config.logName := rfl

/-- A name is one of a file of the log. -/
def IsLogFile (config : StoreConfig) (name : String) : Prop := (config.fileIndex? name).isSome

theorem toList_rotatedName (config : StoreConfig) (n : Nat) :
    (config.rotatedName n).toList = config.logName.toList ++ '.' :: Nat.toDigits 10 n := by
  simp [rotatedName, Text.decimal]

/-- The active file counts as number zero. -/
@[simp] theorem fileIndex?_logName (config : StoreConfig) :
    config.fileIndex? config.logName = some 0 := by
  have := Text.behind?_append config.logName.toList []
  rw [List.append_nil] at this
  simp [fileIndex?, this]

/-- A rotated file is told by its number, if the number fits a machine word. -/
theorem fileIndex?_rotatedName (config : StoreConfig) (hn : 0 < n) (hlimit : n < Text.wordLimit) :
    config.fileIndex? (config.rotatedName n) = some n := by
  rw [fileIndex?, toList_rotatedName, Text.behind?_append]
  simp [Text.numeral?_toDigits hlimit, hn]

/-- Every name of the log tells its number. -/
theorem fileIndex?_nameAt (config : StoreConfig) (hlimit : n < Text.wordLimit) :
    config.fileIndex? (config.nameAt n) = some n := by
  cases n with
  | zero => exact fileIndex?_logName config
  | succ n => exact fileIndex?_rotatedName config n.succ_pos hlimit

/-- The names the log gives are names of its files. -/
theorem isLogFile_nameAt (config : StoreConfig) (hlimit : n < Text.wordLimit) :
    config.IsLogFile (config.nameAt n) := by
  rw [IsLogFile, fileIndex?_nameAt config hlimit]
  rfl

/-- Different numbers give different names. -/
theorem nameAt_inj {m : Nat} (hm : m < Text.wordLimit) (hn : n < Text.wordLimit) :
    config.nameAt m = config.nameAt n ↔ m = n := by
  refine ⟨fun h => ?_, fun h => h ▸ rfl⟩
  have := fileIndex?_nameAt config hm
  rwa [h, fileIndex?_nameAt config hn, Option.some.injEq, eq_comm] at this

theorem isLogFile_logName (config : StoreConfig) : config.IsLogFile config.logName :=
  isLogFile_nameAt config (by decide : 0 < Text.wordLimit)

/-- Only the active file has number 0. -/
theorem eq_logName_of_fileIndex? (h : config.fileIndex? name = some 0) : name = config.logName := by
  unfold fileIndex? at h
  split at h
  · cases h
  · next hbehind =>
    rw [← String.toList_inj, Text.eq_append_of_behind? hbehind, List.append_nil]
  · next hnumber => simp [Option.filter_eq_some_iff] at h
  · cases h

/-- What stands behind the log's own name in a name of one of its files. -/
theorem toList_eq_of_isLogFile (h : config.IsLogFile name) :
    ∃ number, name.toList = config.logName.toList ++ number ∧
      (number = [] ∨ ∃ digits, number = '.' :: digits ∧
        (Text.numeral? 10 Text.wordLimit digits).isSome) := by
  unfold IsLogFile fileIndex? at h
  split at h
  · cases h
  · next hb => exact ⟨[], Text.eq_append_of_behind? hb, .inl rfl⟩
  · next digits hb =>
    refine ⟨_, Text.eq_append_of_behind? hb, .inr ⟨digits, rfl, ?_⟩⟩
    cases hd : Text.numeral? 10 Text.wordLimit digits <;> simp [hd] at h ⊢
  · cases h

/-- The characters of a numeral are digits or signs. -/
theorem not_mem_of_numeral? {limit : Nat} {digits : List Char}
    (h : (Text.numeral? 10 limit digits).isSome) {c : Char} (hplus : c ≠ '+')
    (hdigit : Text.digit? 10 c = none) : c ∉ digits := by
  intro hc
  rw [Text.numeral?_eq_none_of_mem hc hplus hdigit] at h
  cases h

theorem ne_nil_of_numeral? {limit : Nat} {digits : List Char}
    (h : (Text.numeral? 10 limit digits).isSome) : digits ≠ [] := by
  rintro rfl
  cases h

/-- Every file of a log has a plain name, if the log has. -/
theorem isFileName_of_isLogFile (hlog : IsFileName config.logName) (h : config.IsLogFile name) :
    IsFileName name := by
  obtain ⟨number, hname, rfl | ⟨digits, rfl, hdigits⟩⟩ := toList_eq_of_isLogFile h
  · rw [List.append_nil, String.toList_inj] at hname
    exact hname ▸ hlog
  · have hplain {c : Char} (hplus : c ≠ '+') (hdigit : Text.digit? 10 c = none) : c ∉ digits :=
      not_mem_of_numeral? hdigits hplus hdigit
    have hdot : '.' ∉ digits := hplain (by decide) (by decide)
    have hne := ne_nil_of_numeral? hdigits
    have hlast {text : String} (ht : text.toList.all (· = '.') = true) : name ≠ text := by
      rintro rfl
      obtain ⟨c, hc⟩ := List.exists_mem_of_ne_nil digits hne
      have hall := List.all_eq_true.mp ht c (by simp [hname, hc])
      exact hdot (of_decide_eq_true hall ▸ hc)
    refine ⟨hlast (by decide), hlast (by decide), hlast (by decide), ?_, ?_⟩ <;>
      rw [hname, List.mem_append, List.mem_cons, not_or, not_or]
    · exact ⟨hlog.slash_not_mem, by decide, hplain (by decide) (by decide)⟩
    · exact ⟨hlog.nul_not_mem, by decide, hplain (by decide) (by decide)⟩

/-! ## Drafts -/

/-- The name of the draft of a file. -/
def draftName (name : String) : String := "." ++ name ++ ".tmp"

theorem toList_draftName (name : String) :
    (draftName name).toList = '.' :: name.toList ++ ['.', 't', 'm', 'p'] := by
  simp [draftName]

/-- A draft of a file stands beside it. -/
theorem isFileName_draftName (h : IsFileName name) : IsFileName (draftName name) := by
  have hlast {text : String} (ht : text.toList.getLast? ≠ some 'p') : draftName name ≠ text := by
    rintro rfl
    exact ht (by rw [toList_draftName, List.getLast?_append]; rfl)
  refine ⟨hlast (by decide), hlast (by decide), hlast (by decide), ?_, ?_⟩ <;>
    rw [toList_draftName]
  · simpa using h.slash_not_mem
  · have hnul : Char.ofNat 0 ∉ ['.', 't', 'm', 'p'] := by decide
    have hdot : Char.ofNat 0 ≠ '.' := by decide
    rw [List.mem_append, List.mem_cons, not_or, not_or]
    exact ⟨⟨hdot, h.nul_not_mem⟩, hnul⟩

/-- A draft is never a file of the log. -/
theorem not_isLogFile_draftName (h : config.IsLogFile name) :
    ¬ config.IsLogFile (draftName name) := by
  intro hd
  obtain ⟨number, hname, -⟩ := toList_eq_of_isLogFile h
  obtain ⟨number', hdraft, rfl | ⟨digits, rfl, hdigits⟩⟩ := toList_eq_of_isLogFile hd
  · have := congrArg List.length hdraft
    simp [toList_draftName, hname] at this
    omega
  · have hlast := congrArg List.getLast? hdraft
    obtain ⟨front, last, rfl⟩ :=
      List.eq_nil_or_concat digits |>.resolve_left (ne_nil_of_numeral? hdigits)
    have hlast : last = 'p' := by
      simp [toList_draftName, List.getLast?_append, List.getLast?_cons] at hlast
      exact hlast.symm
    exact not_mem_of_numeral? hdigits (c := 'p') (by decide) (by decide) (by simp [hlast])

/-- The draft of a file has the file's path, but for the name. -/
theorem draftOf_join (hdir : config.directory.text ≠ "") (hn : IsFileName name) :
    config.draftOf (config.directory.join name) = config.directory.join (draftName name) := by
  rw [draftOf, Path.fileName?_join hdir hn]
  rfl

/-! ## Order -/

/-- The files among some names are those with a name of the log's own. -/
theorem mem_filesAmong {names : List String} :
    name ∈ config.filesAmong names ↔ name ∈ names ∧ config.IsLogFile name := by
  rw [IsLogFile, Option.isSome_iff_exists]
  simp only [filesAmong, List.mem_map, List.mem_mergeSort, List.mem_filterMap, Option.map_eq_some_iff]
  constructor
  · rintro ⟨_, ⟨found, hfound, n, hn, rfl⟩, rfl⟩
    exact ⟨hfound, n, hn⟩
  · rintro ⟨hm, n, hn⟩
    exact ⟨_, ⟨name, hm, n, hn, rfl⟩, rfl⟩

theorem precedes_trans (x y z : Nat × String) (hxy : precedes x y) (hyz : precedes y z) :
    precedes x z := by
  simp only [precedes, Bool.or_eq_true, decide_eq_true_eq, Bool.and_eq_true, beq_iff_eq] at *
  rcases hxy with hxy | ⟨hxy, hle⟩ <;> rcases hyz with hyz | ⟨hyz, hle'⟩
  · exact .inl (by omega)
  · exact .inl (by omega)
  · exact .inl (by omega)
  · exact .inr ⟨by omega, String.le_trans hle hle'⟩

/-- Two files that precede each other are one. -/
theorem precedes_antisymm (x y : Nat × String) (hxy : precedes x y) (hyx : precedes y x) :
    x = y := by
  simp only [precedes, Bool.or_eq_true, decide_eq_true_eq, Bool.and_eq_true, beq_iff_eq] at *
  rcases hxy with hxy | ⟨hxy, hle⟩ <;> rcases hyx with hyx | ⟨hyx, hle'⟩
  · omega
  · omega
  · omega
  · exact Prod.ext hxy (String.le_antisymm hle hle')

/-- Of two files one precedes the other. -/
theorem precedes_total (x y : Nat × String) : precedes x y || precedes y x := by
  simp only [precedes, Bool.or_eq_true, decide_eq_true_eq, Bool.and_eq_true, beq_iff_eq] at *
  rcases Nat.lt_trichotomy x.1 y.1 with h | h | h
  · exact .inl (.inl h)
  · rcases String.le_total x.2 y.2 with hle | hle
    · exact .inl (.inr ⟨h, hle⟩)
    · exact .inr (.inr ⟨h.symm, hle⟩)
  · exact .inr (.inl h)

/-- Sorting finds the one order in which each file precedes the next. -/
theorem mergeSort_eq_of_perm {numbered sorted : List (Nat × String)} (hperm : numbered.Perm sorted)
    (hsorted : sorted.Pairwise fun x y => precedes x y) : numbered.mergeSort precedes = sorted :=
  ((List.mergeSort_perm _ _).trans hperm).eq_of_pairwise (fun x y _ _ => precedes_antisymm x y)
    (List.pairwise_mergeSort precedes_trans precedes_total numbered) hsorted

/-- The order of the files does not depend on that of the directory. -/
theorem filesAmong_perm {names names' : List String} (h : names.Perm names') :
    config.filesAmong names = config.filesAmong names' := by
  have hnumbered := h.filterMap fun name => (config.fileIndex? name).map fun n => (n, name)
  exact congrArg (List.map (·.2)) (mergeSort_eq_of_perm
    (hnumbered.trans (List.mergeSort_perm _ _).symm)
    (List.pairwise_mergeSort precedes_trans precedes_total _))

/-- The active file comes before all others. -/
theorem filesAmong_cons_logName (names : List String) :
    config.filesAmong (config.logName :: names) = config.logName :: config.filesAmong names := by
  let numbered := names.filterMap fun name => (config.fileIndex? name).map fun n => (n, name)
  suffices hsort : ((0, config.logName) :: numbered).mergeSort precedes
      = (0, config.logName) :: numbered.mergeSort precedes by
    rw [filesAmong, filesAmong, List.filterMap_cons, fileIndex?_logName, Option.map_some]
    exact congrArg (List.map (·.2)) hsort
  -- Every other file has a number above 0.
  refine mergeSort_eq_of_perm ((List.mergeSort_perm _ _).symm.cons _) (List.pairwise_cons.mpr
    ⟨fun (n, name) hmem => ?_, List.pairwise_mergeSort precedes_trans precedes_total _⟩)
  obtain ⟨found, -, hfound⟩ := List.mem_filterMap.mp (List.mem_mergeSort.mp hmem)
  obtain ⟨index, hindex, heq⟩ := Option.map_eq_some_iff.mp hfound
  cases heq
  rcases Nat.eq_zero_or_pos n with rfl | hpos
  · rw [eq_logName_of_fileIndex? hindex]
    simp [precedes]
  · simp [precedes, hpos]

/-- The files of the log are found in the order of their numbers, if no number comes twice. -/
theorem filesAmong_eq {names : List String} (h : names.Nodup) {numbered : List (Nat × String)}
    (hsorted : numbered.Pairwise fun x y => x.1 < y.1)
    (hmem : ∀ n name, (n, name) ∈ numbered ↔ name ∈ names ∧ config.fileIndex? name = some n) :
    config.filesAmong names = numbered.map (·.2) := by
  have hperm : (names.filterMap fun name => (config.fileIndex? name).map fun n => (n, name)).Perm
      numbered := by
    rw [List.perm_ext_iff_of_nodup]
    · rintro ⟨n, name⟩
      simp [hmem]
    · refine h.filterMap fun name other entry hname hother => ?_
      obtain ⟨n, -, rfl⟩ := Option.map_eq_some_iff.mp hname
      obtain ⟨m, -, heq⟩ := Option.map_eq_some_iff.mp hother
      exact (congrArg Prod.snd heq).symm
    · exact hsorted.imp fun hlt heq => by simp [heq] at hlt
  have hprecedes : numbered.Pairwise fun x y => precedes x y :=
    hsorted.imp fun hlt => by simp [precedes, hlt]
  exact congrArg _ (mergeSort_eq_of_perm hperm hprecedes)

end EventLog.StoreConfig
