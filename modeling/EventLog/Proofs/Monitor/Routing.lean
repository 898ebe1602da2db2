import EventLog.Monitor.Set
import EventLog.Proofs.Text

/-!
# EventLog.Proofs.Monitor.Routing

Which monitor looks at a signal.

* `route?_of_accepts`: the member and the namespace of a signal say which
  monitor looks at it, so it is one at most (`eq_of_accepts`);
* `dispatch_eq`: the monitors together do what that one does.
-/

namespace EventLog

/-! ## Names and patterns -/

/-- A text with one field is that field. -/
theorem Text.eq_of_fields_eq {sep : Char} {text field : List Char}
    (h : Text.fields sep text = [field]) : text = field := by
  have := Text.joined_fields sep text
  rw [h] at this
  exact this.symm

/-- The segments of a signal's name are those of its member and of its namespace. -/
theorem Signal.fields_name (s : Signal) :
    Text.fields ':' s.name.toList =
      Text.fields ':' s.member.toList ++ Text.fields ':' s.nameSpace.toList := by
  have htext : s.name.toList = s.member.toList ++ ':' :: s.nameSpace.toList := by
    simp [name, routingName]
  rw [htext, Text.fields_append_sep]

namespace Pattern

/-- A text is one segment, and no wildcard. -/
def IsPlain (text : String) : Prop := ':' ∉ text.toList ∧ text ≠ "*" ∧ text ≠ "**"

instance (text : String) : Decidable (IsPlain text) := inferInstanceAs (Decidable (_ ∧ _))

/-- A pattern of one member and one namespace matches names of just these segments. -/
theorem accepts_routingName {member nameSpace : String} (hm : IsPlain member)
    (hn : ':' ∉ nameSpace.toList) (name : String) :
    (Pattern.mk (routingName member nameSpace)).accepts name =
      matchSegments [member.toList, nameSpace.toList] (Text.fields ':' name.toList) := by
  have htext : (routingName member nameSpace).toList
      = member.toList ++ ':' :: nameSpace.toList := by simp [routingName]
  have hne {text : String} (h : ':' ∉ text.toList) : routingName member nameSpace ≠ text := by
    rintro rfl
    exact h (by simp [htext])
  rw [accepts, if_neg (hne (by decide)),
    if_neg (not_or.mpr ⟨hne (by decide), hne (by decide)⟩), htext, Text.fields_append hm.1,
    Text.fields_of_not_mem hn]

/-- Two segments match two segments that are the same, or with a wildcard behind. -/
theorem of_matchSegments_pair {first second : List Char} (h₁ : first ≠ ['*'])
    (h₂ : first ≠ ['*', '*']) (h₃ : second ≠ ['*', '*']) {segments : List (List Char)}
    (h : matchSegments [first, second] segments = true) :
    ∃ last, segments = [first, last] ∧ (second = ['*'] ∨ last = second) := by
  match segments with
  | [] => simp [matchSegments, h₂] at h
  | [_] => simp [matchSegments, h₂, h₃] at h
  | [front, last] =>
    simp only [matchSegments, h₁, h₂, h₃, if_false, decide_false, Bool.false_or, Bool.and_true,
      Bool.and_eq_true, Bool.or_eq_true, decide_eq_true_eq] at h
    exact ⟨last, by rw [h.1], h.2.imp_right Eq.symm⟩
  | _ :: _ :: _ :: _ => simp [matchSegments, h₂, h₃] at h

/-- A pattern of a member accepts signals with that member only. -/
theorem of_accepts_name {member nameSpace : String} (hm : IsPlain member)
    (hn : ':' ∉ nameSpace.toList ∧ nameSpace ≠ "**") {s : Signal}
    (h : (Pattern.mk (routingName member nameSpace)).accepts s.name = true) :
    s.member = member ∧ (nameSpace = "*" ∨ s.nameSpace = nameSpace) := by
  have hne {text other : String} (hto : text ≠ other) : text.toList ≠ other.toList :=
    fun e => hto (String.toList_inj.mp e)
  rw [accepts_routingName hm hn.1, Signal.fields_name] at h
  obtain ⟨last, hsegments, hlast⟩ :=
    of_matchSegments_pair (hne hm.2.1) (hne hm.2.2) (hne hn.2) h
  obtain ⟨x, xs, hx⟩ := List.exists_cons_of_ne_nil (Text.fields_ne_nil ':' s.member.toList)
  obtain ⟨y, ys, hy⟩ := List.exists_cons_of_ne_nil (Text.fields_ne_nil ':' s.nameSpace.toList)
  rw [hx, hy] at hsegments
  have hlength := congrArg List.length hsegments
  simp only [List.length_append, List.length_cons, List.length_nil] at hlength
  obtain rfl : xs = [] := List.length_eq_zero_iff.mp (by omega)
  obtain rfl : ys = [] := List.length_eq_zero_iff.mp (by omega)
  simp only [List.cons_append, List.nil_append, List.cons.injEq, and_true] at hsegments
  obtain ⟨rfl, rfl⟩ := hsegments
  refine ⟨String.toList_inj.mp (Text.eq_of_fields_eq hx), hlast.imp (fun hwild => ?_) fun he => ?_⟩
  · exact String.toList_inj.mp hwild
  · exact String.toList_inj.mp ((Text.eq_of_fields_eq hy).trans he)

/-- An exact pattern accepts signals of its member and its namespace only. -/
theorem of_accepts_exact {member nameSpace : String} (hm : IsPlain member) (hn : IsPlain nameSpace)
    {s : Signal} (h : (exact member nameSpace).accepts s.name = true) :
    s.member = member ∧ s.nameSpace = nameSpace := by
  obtain ⟨hmember, hwild | hspace⟩ := of_accepts_name hm ⟨hn.1, hn.2.2⟩ h
  · exact absurd hwild hn.2.1
  · exact ⟨hmember, hspace⟩

theorem of_accepts_anyOf {member : String} (hm : IsPlain member) {s : Signal}
    (h : (anyOf member).accepts s.name = true) : s.member = member :=
  (of_accepts_name hm (by decide) h).1

end Pattern

/-! ## The monitor of a signal -/

namespace Monitor

/-- The monitor that looks at signals with a member and a namespace. -/
def route? (member nameSpace : String) : Option Monitor :=
  if member = Crossing.member then some threshold
  else if Crossing.alarms.any fun (kind, assert) => Crossing.alarmMember kind assert = member then
    some thresholdAlarm
  else if member = propertiesChangedMember then
    if nameSpace = Watchdog.stateInterface then some watchdog
    else if HostError.errors.any fun e => HostError.interface e = nameSpace then some hostError
    else if nameSpace = PowerEvent.hostInterface then some power
    else none
  else if member = "Timeout" ∧ nameSpace = Watchdog.timeoutInterface then some watchdog
  else none

/-- **The member and the namespace of a signal say which monitor looks at it.** -/
theorem route?_of_accepts {m : Monitor} {s : Signal} (h : m.accepts s.name = true) :
    route? s.member s.nameSpace = some m := by
  rw [accepts, List.any_eq_true] at h
  obtain ⟨pattern, hpattern, haccepts⟩ := h
  cases m with
  | threshold =>
    obtain rfl := List.mem_singleton.mp hpattern
    rw [route?, if_pos (Pattern.of_accepts_anyOf (by decide) haccepts)]
  | thresholdAlarm =>
    obtain ⟨⟨kind, assert⟩, -, rfl⟩ := List.mem_map.mp hpattern
    have hplain : Pattern.IsPlain (Crossing.alarmMember kind assert) := by
      cases kind <;> cases assert <;> decide
    rw [Pattern.of_accepts_anyOf hplain haccepts]
    cases kind <;> cases assert <;> rfl
  | watchdog =>
    simp only [patterns, List.mem_cons, List.not_mem_nil, or_false] at hpattern
    rcases hpattern with rfl | rfl
    all_goals
      obtain ⟨hmember, hspace⟩ := Pattern.of_accepts_exact (by decide) (by decide) haccepts
      rw [hmember, hspace]
      decide
  | hostError =>
    obtain ⟨e, he, rfl⟩ := List.mem_map.mp hpattern
    have hplain : ∀ e ∈ HostError.errors, Pattern.IsPlain (HostError.interface e) ∧
        route? propertiesChangedMember (HostError.interface e) = some hostError := by decide
    obtain ⟨hmember, hspace⟩ := Pattern.of_accepts_exact (by decide) (hplain e he).1 haccepts
    rw [hmember, hspace, (hplain e he).2]
  | power =>
    obtain rfl := List.mem_singleton.mp hpattern
    obtain ⟨hmember, hspace⟩ := Pattern.of_accepts_exact (by decide) (by decide) haccepts
    rw [hmember, hspace]
    decide

/-- What the signals look like that each monitor looks at. -/
theorem of_route? {member nameSpace : String} {m : Monitor}
    (h : route? member nameSpace = some m) :
    match m with
    | threshold => member = Crossing.member
    | thresholdAlarm => ∃ alarm ∈ Crossing.alarms, Crossing.alarmMember alarm.1 alarm.2 = member
    | watchdog => member = propertiesChangedMember ∧ nameSpace = Watchdog.stateInterface ∨
        member = "Timeout" ∧ nameSpace = Watchdog.timeoutInterface
    | hostError => member = propertiesChangedMember ∧
        ∃ e ∈ HostError.errors, HostError.interface e = nameSpace
    | power => member = propertiesChangedMember ∧ nameSpace = PowerEvent.hostInterface := by
  unfold route? at h
  split at h
  · next hmember => cases h; exact hmember
  split at h
  · next halarm =>
    cases h
    obtain ⟨alarm, hmem, hmember⟩ := List.any_eq_true.mp halarm
    exact ⟨alarm, hmem, of_decide_eq_true hmember⟩
  split at h
  · next hchanged =>
    split at h
    · next hspace => cases h; exact .inl ⟨hchanged, hspace⟩
    split at h
    · next herror =>
      cases h
      obtain ⟨e, hmem, hspace⟩ := List.any_eq_true.mp herror
      exact ⟨hchanged, e, hmem, of_decide_eq_true hspace⟩
    split at h
    · next hspace => cases h; exact ⟨hchanged, hspace⟩
    · cases h
  split at h
  · next htimeout => cases h; exact .inr htimeout
  · cases h

/-- At most one monitor looks at a signal. -/
theorem eq_of_accepts {m n : Monitor} {s : Signal} (hm : m.accepts s.name = true)
    (hn : n.accepts s.name = true) : m = n :=
  Option.some.inj ((route?_of_accepts hm).symm.trans (route?_of_accepts hn))

end Monitor

/-! ## All monitors together -/

namespace Monitors

variable {m : Monitors} {peers : Peers} {signal : Signal}

/-- The enabled monitor that looks at a signal. -/
def handler? (m : Monitors) (signal : Signal) : Option Monitor :=
  m.enabled.find? (·.accepts signal.name)

/-- The monitor that handles a signal accepts it. -/
theorem accepts_of_handler? {h : Monitor} (hh : m.handler? signal = some h) :
    h.accepts signal.name = true := by
  rw [handler?, List.find?_eq_some_iff_append] at hh
  exact hh.1

theorem route?_of_handler? {h : Monitor} (hh : m.handler? signal = some h) :
    Monitor.route? signal.member signal.nameSpace = some h :=
  Monitor.route?_of_accepts (accepts_of_handler? hh)

theorem offer_of_accepts (d : Dispatched) {h : Monitor} (hh : h.accepts signal.name = true) :
    offer peers signal d h =
      let p := h.process d.monitors.config.enabledSource peers signal d.monitors.state
      ⟨d.notices ++ p.result.toOption.join.toList, { d.monitors with state := p.state },
        d.queries ++ p.queries⟩ := if_pos hh

/-- Monitors that do not accept a signal are passed over. -/
theorem foldl_offer_of_not_accepts {l : List Monitor} (h : ∀ h ∈ l, h.accepts signal.name = false)
    (d : Dispatched) : l.foldl (offer peers signal) d = d := by
  induction l with
  | nil => rfl
  | cons first l ih =>
    rw [List.foldl_cons, offer, h first List.mem_cons_self]
    exact ih fun h' hm => h h' (List.mem_cons_of_mem first hm)

/-- Of several monitors at most one is shown the signal. -/
theorem foldl_offer {l : List Monitor} (hl : l.Nodup) (d : Dispatched) :
    l.foldl (offer peers signal) d =
      match l.find? (·.accepts signal.name) with
      | none => d
      | some h => offer peers signal d h := by
  induction l with
  | nil => rfl
  | cons first l ih =>
    obtain ⟨hfirst, hrest⟩ := List.nodup_cons.mp hl
    rw [List.foldl_cons, List.find?_cons]
    cases haccepts : first.accepts signal.name with
    | true =>
      refine foldl_offer_of_not_accepts (fun h hm => ?_) _
      rw [Bool.eq_false_iff]
      exact fun hh => hfirst (Monitor.eq_of_accepts haccepts hh ▸ hm)
    | false =>
      have hoffer : offer peers signal d first = d := by rw [offer, haccepts]; rfl
      rw [hoffer]
      exact ih hrest

/-- **The monitors together do what the one does that looks at the signal.** -/
theorem dispatch_eq (m : Monitors) (peers : Peers) (signal : Signal) :
    m.dispatch peers signal =
      match m.handler? signal with
      | none => ⟨[], m, []⟩
      | some h =>
        let p := h.process m.config.enabledSource peers signal m.state
        ⟨p.result.toOption.join.toList, { m with state := p.state }, p.queries⟩ := by
  have hall : m.enabled.Nodup := (by decide : Monitor.all.Nodup).filter _
  rw [dispatch, foldl_offer hall, ← handler?]
  cases hh : m.handler? signal with
  | none => rfl
  | some h => exact offer_of_accepts _ (accepts_of_handler? hh)

end Monitors

end EventLog
