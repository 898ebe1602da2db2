import EventLog.Proofs.Monitor.Routing

/-!
# EventLog.Proofs.Signal.Pattern

Which names a pattern matches.

    ThresholdAsserted : *        ThresholdAsserted : x, whatever x is
    PropertiesChanged : **       PropertiesChanged, and whatever is behind it

* `front`: the segments of a pattern that stand for one segment of the name each;
* `MatchesAt`: those match the segments of the name at their positions;
* `matchSegments_iff`: the comparison from the left comes to the same;
* `matches_by_position`: what that makes of whole patterns, and of those that are
  made for one name or one member.
-/

namespace EventLog

/-- A text is two fields exactly if the separator stands between the two and nowhere else. -/
theorem Text.fields_eq_pair_iff {sep : Char} {text first second : List Char} :
    Text.fields sep text = [first, second] ↔
      text = first ++ sep :: second ∧ sep ∉ first ∧ sep ∉ second := by
  constructor
  · intro h
    have htext := Text.joined_fields sep text
    have hfree {field : List Char} (hf : field ∈ [first, second]) : sep ∉ field :=
      Text.not_mem_of_mem_fields (h ▸ hf)
    rw [h] at htext
    exact ⟨htext.symm, hfree (by simp), hfree (by simp)⟩
  · rintro ⟨rfl, hfirst, hsecond⟩
    rw [Text.fields_append hfirst, Text.fields_of_not_mem hsecond]

namespace Pattern

variable {segment piece : List Char} {pattern name : List (List Char)}

/-! ## Segments by their positions -/

/-- The segments of a pattern in front of the first `**`. -/
def front (pattern : List (List Char)) : List (List Char) :=
  pattern.takeWhile (· ≠ ['*', '*'])

/-- The name has a segment for each one in front of `**`, and no others unless there is a
`**`; and each of these is `*` or the segment of the name at the same position. -/
def MatchesAt (pattern name : List (List Char)) : Prop :=
  (if ['*', '*'] ∈ pattern then (front pattern).length ≤ name.length
    else (front pattern).length = name.length) ∧
  ∀ (i : Nat) (segment : List Char), (front pattern)[i]? = some segment →
    segment = ['*'] ∨ name[i]? = some segment

theorem front_cons_rest : front (['*', '*'] :: pattern) = [] := rfl

theorem front_cons (h : segment ≠ ['*', '*']) :
    front (segment :: pattern) = segment :: front pattern :=
  List.takeWhile_cons_of_pos (decide_eq_true h)

/-- The rest mark matches every name. -/
theorem matchesAt_rest : MatchesAt (['*', '*'] :: pattern) name := by
  refine ⟨?_, fun i segment h => ?_⟩
  · rw [if_pos List.mem_cons_self, front_cons_rest]
    exact Nat.zero_le _
  · rw [front_cons_rest] at h
    cases h

/-- A pattern at its end matches only a name at its end. -/
theorem matchesAt_nil_iff : MatchesAt [] name ↔ name = [] := by
  constructor
  · rintro ⟨hlength, -⟩
    rw [if_neg List.not_mem_nil] at hlength
    exact List.length_eq_zero_iff.mp hlength.symm
  · rintro rfl
    exact ⟨rfl, fun i segment h => by cases h⟩

/-- A segment that is no rest mark matches no name at its end. -/
theorem not_matchesAt_cons_nil (h : segment ≠ ['*', '*']) :
    ¬ MatchesAt (segment :: pattern) [] := by
  rintro ⟨hlength, -⟩
  rw [front_cons h, List.length_cons, List.length_nil] at hlength
  split at hlength <;> omega

/-- The first segments match each other, and the others theirs. -/
theorem matchesAt_cons_cons (h : segment ≠ ['*', '*']) :
    MatchesAt (segment :: pattern) (piece :: name) ↔
      (segment = ['*'] ∨ segment = piece) ∧ MatchesAt pattern name := by
  have hmem : ['*', '*'] ∈ segment :: pattern ↔ ['*', '*'] ∈ pattern := by
    rw [List.mem_cons, or_iff_right h.symm]
  simp only [MatchesAt, front_cons h, hmem, List.length_cons, Nat.add_le_add_iff_right,
    Nat.add_right_cancel_iff]
  constructor
  · rintro ⟨hlength, hall⟩
    refine ⟨(hall 0 segment rfl).imp_right fun hpiece => ?_, hlength, fun i => hall (i + 1)⟩
    exact (Option.some.inj hpiece).symm
  · rintro ⟨hfirst, hlength, hall⟩
    refine ⟨hlength, fun i other hother => ?_⟩
    cases i with
    | zero =>
      obtain rfl : segment = other := Option.some.inj hother
      exact hfirst.imp_right fun hpiece => congrArg some hpiece.symm
    | succ i => exact hall i other hother

/-- **The comparison from the left** finds out whether the segments match at their positions. -/
theorem matchSegments_iff : matchSegments pattern name = true ↔ MatchesAt pattern name := by
  induction pattern generalizing name with
  | nil =>
    rw [matchesAt_nil_iff]
    cases name <;> simp [matchSegments]
  | cons segment pattern ih =>
    by_cases hrest : segment = ['*', '*']
    · subst hrest
      refine iff_of_true ?_ matchesAt_rest
      cases name <;> rfl
    · cases name with
      | nil =>
        refine iff_of_false ?_ (not_matchesAt_cons_nil hrest)
        simp [matchSegments, hrest]
      | cons piece name =>
        rw [matchesAt_cons_cons hrest, ← ih]
        simp [matchSegments, hrest]

/-! ## Patterns of one name or one member -/

/-- Two segments match two segments, the first of them the same. -/
theorem matchSegments_pair_iff {first second : List Char} (h₁ : first ≠ ['*'])
    (h₂ : first ≠ ['*', '*']) (h₃ : second ≠ ['*', '*']) :
    matchSegments [first, second] name = true ↔
      ∃ last, name = [first, last] ∧ (second = ['*'] ∨ last = second) := by
  refine ⟨of_matchSegments_pair h₁ h₂ h₃, ?_⟩
  rintro ⟨last, rfl, hlast⟩
  simp only [matchSegments, h₂, h₃, if_false, decide_true, Bool.or_true, Bool.true_and,
    Bool.and_true, Bool.or_eq_true, decide_eq_true_eq]
  exact hlast.imp_right Eq.symm

/-- The pattern of a member and a namespace matches names of that member, with one more
segment: the namespace, or any one if the namespace is `*`. -/
theorem accepts_routingName_iff {member nameSpace : String} (hm : IsPlain member)
    (hn : ':' ∉ nameSpace.toList ∧ nameSpace ≠ "**") (name : String) :
    (Pattern.mk (routingName member nameSpace)).accepts name = true ↔
      ∃ last, ':' ∉ last.toList ∧ name = routingName member last ∧
        (nameSpace = "*" ∨ last = nameSpace) := by
  have hne {text other : String} (hto : text ≠ other) : text.toList ≠ other.toList :=
    fun e => hto (String.toList_inj.mp e)
  rw [accepts_routingName hm hn.1,
    matchSegments_pair_iff (hne hm.2.1) (hne hm.2.2) (hne hn.2)]
  constructor
  · rintro ⟨last, hfields, hlast⟩
    obtain ⟨htext, -, hfree⟩ := Text.fields_eq_pair_iff.mp hfields
    refine ⟨String.ofList last, by rwa [String.toList_ofList], ?_, ?_⟩
    · refine String.toList_inj.mp (htext.trans ?_)
      simp [routingName]
    · refine hlast.imp (fun hwild => String.toList_inj.mp hwild) fun he => ?_
      rw [he, String.ofList_toList]
  · rintro ⟨last, hfree, rfl, hlast⟩
    refine ⟨last.toList, Text.fields_eq_pair_iff.mpr ⟨?_, hm.1, hfree⟩, ?_⟩
    · simp [routingName]
    · exact hlast.imp (congrArg String.toList) (congrArg String.toList)

/-- **What patterns match.**  The empty pattern matches no name, and `*` and `**` every
name.  Any other pattern matches the names whose segments match its own at their
positions, up to the first `**`.  So the pattern of one member in one namespace matches
that name only, and the pattern of one member in any namespace the names of the member
with one more segment. -/
theorem matches_by_position :
    (∀ name, (Pattern.mk "").accepts name = false) ∧
    (∀ name, (Pattern.mk "*").accepts name = true ∧ (Pattern.mk "**").accepts name = true) ∧
    (∀ (p : Pattern) (name : String), p.text ≠ "" → p.text ≠ "*" → p.text ≠ "**" →
      (p.accepts name = true ↔
        MatchesAt (Text.fields ':' p.text.toList) (Text.fields ':' name.toList))) ∧
    (∀ member nameSpace name, IsPlain member → IsPlain nameSpace →
      ((exact member nameSpace).accepts name = true ↔ name = routingName member nameSpace)) ∧
    ∀ member name, IsPlain member →
      ((anyOf member).accepts name = true ↔
        ∃ last, ':' ∉ last.toList ∧ name = routingName member last) := by
  refine ⟨fun name => rfl, fun name => ⟨rfl, rfl⟩, fun p name hempty hone hall => ?_,
    fun member nameSpace name hm hn => ?_, fun member name hm => ?_⟩
  · rw [accepts, if_neg hempty, if_neg (not_or.mpr ⟨hone, hall⟩), matchSegments_iff]
  · rw [exact, accepts_routingName_iff hm ⟨hn.1, hn.2.2⟩]
    constructor
    · rintro ⟨last, -, rfl, hlast⟩
      rw [hlast.resolve_left hn.2.1]
    · rintro rfl
      exact ⟨nameSpace, hn.1, rfl, .inr rfl⟩
  · rw [anyOf, accepts_routingName_iff hm (by decide)]
    constructor
    · rintro ⟨last, hfree, hname, -⟩
      exact ⟨last, hfree, hname⟩
    · rintro ⟨last, hfree, hname⟩
      exact ⟨last, hfree, hname, .inl rfl⟩

/-- What is behind `**` may be anything, and nothing as well. -/
example : (Pattern.mk "PropertiesChanged:**").accepts "PropertiesChanged" = true := by
  decide +kernel

end Pattern

end EventLog
