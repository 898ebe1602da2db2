import EventLog.Proofs.Monitor.Alternation
import EventLog.Proofs.Monitor.Relay

/-!
# EventLog.Proofs.Monitor.Separation

Sources of events do not disturb one another, although all monitors share the
conditions that stand.

* `Signal.condition?`: the condition that a signal is about;
* `verdict_congr`: the verdict on a signal depends on that condition alone;
* `AgreesOn`: two sets of monitors remember the same of some conditions; it is kept
  by signals that are about these conditions (`AgreesOn.react`), and a signal about
  another one does not break it (`agreesOn_react_self`);
* `sources_are_separate`: so signals about other conditions can be left out, signals
  about two conditions can change places, and what is not tracked has no memory.
-/

namespace EventLog

/-! ## What a signal is about -/

/-- The condition that an event changes, if it is tracked. -/
def MonitorEvent.condition? : MonitorEvent → Option Condition
  | .crossing tracked c => if tracked then some c.condition else none
  | .watchdog (.timeout ..) => none
  | .watchdog (.enabled _ path _) => some ⟨path, Watchdog.enabledProperty⟩
  | .hostError e => some ⟨e.path, e.error⟩
  | .power _ => none

/-- The condition that a signal is about: that of the event which is read out of it
by the monitor that looks at it. -/
def Signal.condition? (signal : Signal) : Option Condition := do
  let monitor ← Monitor.all.find? (·.accepts signal.name)
  let event ← (monitor.decode signal).toOption.join
  event.condition?

/-- Whether the signal of an arrival is about a condition. -/
def Arrival.isAbout (condition : Condition) (arrival : Arrival) : Bool :=
  arrival.signal.condition? == some condition

theorem Arrival.isAbout_iff {condition : Condition} {arrival : Arrival} :
    arrival.isAbout condition = true ↔ arrival.signal.condition? = some condition := beq_iff_eq

/-- What an arrival comes to, as seen from outside: what there is to report, and the
questions that were asked. -/
structure Output where
  arrival : Arrival
  notices : List Notice
  queries : List BusQuery

namespace Monitors

/-- What the monitors make of an arrival, as seen from outside. -/
def output (m : Monitors) (arrival : Arrival) : Output :=
  ⟨arrival, (m.react arrival).notices, (m.react arrival).queries⟩

/-- What the monitors make of each arrival of a run. -/
def outputs (m : Monitors) (arrivals : List Arrival) : List Output :=
  (m.episodes arrivals).map fun e => ⟨e.arrival, e.outcome.notices, e.outcome.queries⟩

end Monitors

namespace Monitor

variable {m : Monitor} {source : EnabledSource} {peers : Peers} {signal : Signal}
  {a b : Assertions}

theorem mem_all (m : Monitor) : m ∈ all := by cases m <;> decide

/-- The condition of a signal is that of the event that its monitor reads out of it. -/
theorem condition?_of_accepts (h : m.accepts signal.name = true) :
    signal.condition? = (m.decode signal).toOption.join >>= MonitorEvent.condition? := by
  have hfind : all.find? (·.accepts signal.name) = some m := by
    obtain ⟨found, hfound⟩ : ∃ found, all.find? (·.accepts signal.name) = some found :=
      Option.isSome_iff_exists.mp (List.find?_isSome.mpr ⟨m, m.mem_all, h⟩)
    have hfirst : found.accepts signal.name = true := by simpa using List.find?_some hfound
    rw [hfound, eq_of_accepts h hfirst]
  rw [Signal.condition?, hfind]
  rfl

/-- What is observed of an event changes the condition of the event, and no other. -/
theorem condition?_of_observed {event : MonitorEvent} {o : Observation}
    (h : ((observe peers source event).run []).1 = .ok o) :
    o.change.map Change.condition = event.condition? := by
  cases event with
  | crossing tracked c =>
    obtain ⟨_, _, _, -, -, hchange⟩ := observation_of_yields (c.observe_yields peers tracked) h
    rw [hchange]
    cases tracked <;> rfl
  | watchdog w =>
    have htells := observation_of_yields (Watchdog.observe_yields peers source w) h
    cases w with
    | timeout sender path action =>
      obtain ⟨_, _, -, -, hchange⟩ := htells
      rw [hchange]
      rfl
    | enabled sender path value =>
      obtain ⟨_, _, _, -, -, hchange⟩ := htells
      rw [hchange]
      rfl
  | hostError e =>
    obtain ⟨_, -, -, hchange⟩ := observation_of_yields e.observe_yields h
    rw [hchange]
    rfl
  | power e =>
    cases h
    cases e <;> rfl

/-- A verdict hangs on the condition of its own change only. -/
theorem judge_congr {o : Observation}
    (h : ∀ change, o.change = some change → (change.condition ∈ a ↔ change.condition ∈ b)) :
    judge o a = judge o b := by
  rw [judge, judge]
  cases hchange : o.change with
  | none => rfl
  | some change =>
    have hwould : a.wouldApply change.condition change.assert
        = b.wouldApply change.condition change.assert := by
      rw [Bool.eq_iff_iff, Assertions.wouldApply_eq_true, Assertions.wouldApply_eq_true,
        h change hchange]
    simp only [hwould]

/-- **The verdict on a signal depends on the condition that it is about**, and on
nothing else that stands. -/
theorem verdict_congr (haccepts : m.accepts signal.name = true)
    (h : ∀ c, signal.condition? = some c → (c ∈ a ↔ c ∈ b)) :
    m.verdict source peers signal a = m.verdict source peers signal b := by
  rw [condition?_of_accepts haccepts] at h
  rw [verdict, verdict]
  rcases hdecode : m.decode signal with e | _ | event
  · rfl
  · rfl
  · cases hobserve : ((observe peers source event).run []).1 with
    | error e => simp only [hobserve]
    | ok o =>
      have hcondition := condition?_of_observed hobserve
      simp only [hobserve]
      refine judge_congr fun change hchange => h _ ?_
      rw [hchange] at hcondition
      rw [hdecode]
      exact hcondition.symm

/-- The change that is accepted of a signal is one of the signal's condition. -/
theorem condition?_of_accepted (haccepts : m.accepts signal.name = true) {o : Observation}
    (h : m.verdict source peers signal a = .accepted o) :
    o.change.map Change.condition = signal.condition? := by
  obtain ⟨event, hdecode, hobserve, -⟩ := of_verdict_eq_accepted h
  rw [condition?_of_accepts haccepts, hdecode, condition?_of_observed hobserve]
  rfl

/-- Only the watchdog has a last say that depends on what came before. -/
theorem finish_of_ne (h : m ≠ watchdog) (peers : Peers) (notice : Notice) (noLog : Bool) :
    m.finish peers notice noLog = (some notice, noLog, []) := by
  cases m with
  | watchdog => exact absurd rfl h
  | _ => rfl

/-- Signals about thresholds and about the host's errors are not the watchdog's. -/
theorem ne_watchdog_of_condition? (haccepts : m.accepts signal.name = true) {c : Condition}
    (h : signal.condition? = some c) (hkind : c.kind ∈ reportedKinds) : m ≠ watchdog := by
  rintro rfl
  rw [condition?_of_accepts haccepts] at h
  rcases hdecode : watchdog.decode signal with e | _ | event <;> rw [hdecode] at h
  · cases h
  · cases h
  · obtain ⟨found, -, hevent⟩ := Step.bind_eq_ok.mp hdecode
    obtain ⟨w, -, rfl⟩ := Option.map_eq_some_iff.mp (Except.ok.inj hevent)
    cases w with
    | timeout sender path action => cases h
    | enabled sender path value =>
      cases h
      exact absurd hkind (by decide : Watchdog.enabledProperty ∉ reportedKinds)

/-- What a monitor makes of a signal depends on the condition that it is about, and
for the watchdog on its last say. -/
theorem process_congr (source : EnabledSource) (peers : Peers) {s t : MonitorState}
    (haccepts : m.accepts signal.name = true)
    (h : ∀ c, signal.condition? = some c → (c ∈ s.assertions ↔ c ∈ t.assertions))
    (hlog : m = watchdog → s.noLog = t.noLog) :
    (m.process source peers signal s).result = (m.process source peers signal t).result ∧
      (m.process source peers signal s).queries = (m.process source peers signal t).queries ∧
      (s.noLog = t.noLog → (m.process source peers signal s).state.noLog
        = (m.process source peers signal t).state.noLog) := by
  have hverdict : m.verdict source peers signal s.assertions
      = m.verdict source peers signal t.assertions := verdict_congr haccepts h
  rw [process_eq m source peers signal s, process_eq m source peers signal t, ← hverdict]
  cases m.verdict source peers signal s.assertions with
  | failed e => exact ⟨rfl, rfl, id⟩
  | irrelevant => exact ⟨rfl, rfl, id⟩
  | duplicate change => exact ⟨rfl, rfl, id⟩
  | accepted o =>
    by_cases hwatchdog : m = watchdog
    · rw [hlog hwatchdog]
      exact ⟨rfl, rfl, fun _ => rfl⟩
    · simp only [finish_of_ne hwatchdog]
      exact ⟨trivial, trivial, id⟩

/-- Only the watchdog's monitor touches the wish not to log. -/
theorem noLog_process (h : m ≠ watchdog) (source : EnabledSource) (peers : Peers)
    (signal : Signal) (state : MonitorState) :
    (m.process source peers signal state).state.noLog = state.noLog := by
  rw [process_eq]
  cases m.verdict source peers signal state.assertions with
  | accepted o => simp only [finish_of_ne h]
  | _ => rfl

end Monitor

namespace Monitors

variable {m n : Monitors} {arrival : Arrival} {on : Condition → Prop}

/-! ## Memories that agree -/

/-- Monitors of one configuration that remember the same of some conditions. -/
structure AgreesOn (on : Condition → Prop) (m n : Monitors) : Prop where
  config_eq : m.config = n.config
  mem_iff : ∀ c, on c → (c ∈ m.state.assertions ↔ c ∈ n.state.assertions)

theorem AgreesOn.refl (on : Condition → Prop) (m : Monitors) : AgreesOn on m m :=
  ⟨rfl, fun _ _ => Iff.rfl⟩

theorem AgreesOn.symm (h : AgreesOn on m n) : AgreesOn on n m :=
  ⟨h.config_eq.symm, fun c hc => (h.mem_iff c hc).symm⟩

theorem AgreesOn.trans {l : Monitors} (h : AgreesOn on m n) (h' : AgreesOn on n l) :
    AgreesOn on m l :=
  ⟨h.config_eq.trans h'.config_eq, fun c hc => (h.mem_iff c hc).trans (h'.mem_iff c hc)⟩

theorem AgreesOn.handler?_eq (h : AgreesOn on m n) (signal : Signal) :
    m.handler? signal = n.handler? signal := by
  rw [handler?, handler?, enabled, enabled, h.config_eq]

/-- The verdicts on a signal are the same, if it is about a condition of which the
same is remembered. -/
theorem AgreesOn.verdict_eq (h : AgreesOn on m n)
    (ha : ∀ c, arrival.signal.condition? = some c → on c) :
    m.verdict arrival = n.verdict arrival := by
  rw [verdict, verdict, h.handler?_eq, h.config_eq]
  cases hh : n.handler? arrival.signal with
  | none => rfl
  | some handler =>
    exact Monitor.verdict_congr (accepts_of_handler? hh) fun c hc => h.mem_iff c (ha c hc)

/-- An accepted change is one of the condition that the signal is about. -/
theorem condition?_of_change? {change : Change} (h : (m.verdict arrival).change? = some change) :
    arrival.signal.condition? = some change.condition := by
  rcases (m.verdict arrival).accepted_or_refused with ⟨o, hverdict⟩ | ⟨-, hnone⟩
  · obtain ⟨handler, hh, hv, -⟩ := react_of_accepted hverdict
    rw [hverdict] at h
    have hchange : o.change = some change := h
    rw [← Monitor.condition?_of_accepted (accepts_of_handler? hh) hv, hchange]
    rfl
  · rw [hnone] at h
    cases h

/-- An arrival changes the condition of its accepted change, and no other. -/
theorem mem_react (c : Condition) :
    c ∈ (m.react arrival).monitors.state.assertions ↔
      match (m.verdict arrival).change? with
      | none => c ∈ m.state.assertions
      | some change =>
        if c = change.condition then change.assert = true else c ∈ m.state.assertions := by
  rw [(assertions_of_react m arrival).1]
  cases (m.verdict arrival).change? with
  | none => exact Iff.rfl
  | some change => exact Monitor.mem_track

/-- Signals about conditions of which the same is remembered leave it so. -/
theorem AgreesOn.react (h : AgreesOn on m n)
    (ha : ∀ c, arrival.signal.condition? = some c → on c) :
    AgreesOn on (m.react arrival).monitors (n.react arrival).monitors where
  config_eq := (config_dispatch m _ _).trans (h.config_eq.trans (config_dispatch n _ _).symm)
  mem_iff c hc := by
    rw [mem_react, mem_react, h.verdict_eq ha]
    cases (n.verdict arrival).change? with
    | none => exact h.mem_iff c hc
    | some change => simp only [h.mem_iff c hc]

/-- A signal leaves what is remembered of other conditions as it is. -/
theorem agreesOn_react_self (m : Monitors)
    (ha : ∀ c, arrival.signal.condition? = some c → ¬ on c) :
    AgreesOn on (m.react arrival).monitors m where
  config_eq := config_dispatch m _ _
  mem_iff c hc := by
    rw [mem_react]
    cases hchange : (m.verdict arrival).change? with
    | none => exact Iff.rfl
    | some change =>
      have hne : c ≠ change.condition := by
        rintro rfl
        exact ha _ (condition?_of_change? hchange) hc
      simp only [if_neg hne]

/-! ## Outputs -/

theorem outputs_cons (m : Monitors) (arrivals : List Arrival) :
    m.outputs (arrival :: arrivals)
      = m.output arrival :: (m.react arrival).monitors.outputs arrivals := rfl

theorem after_cons (m : Monitors) (arrivals : List Arrival) :
    m.after (arrival :: arrivals) = (m.react arrival).monitors.after arrivals := rfl

/-- The outputs of two runs are those of the first and, from its end, those of the second. -/
theorem outputs_append (m : Monitors) (front back : List Arrival) :
    m.outputs (front ++ back) = m.outputs front ++ (m.after front).outputs back := by
  rw [outputs, episodes, episodesOf_append, List.map_append]
  rfl

theorem after_append (m : Monitors) (front back : List Arrival) :
    m.after (front ++ back) = (m.after front).after back := List.foldl_append

/-- There is one output for each arrival, in their order. -/
theorem map_arrival_outputs (m : Monitors) (arrivals : List Arrival) :
    (m.outputs arrivals).map (·.arrival) = arrivals := by
  induction arrivals generalizing m with
  | nil => rfl
  | cons arrival arrivals ih => rw [outputs_cons, List.map_cons, ih]; rfl

/-- The output on a signal is the same, if it is about a condition of which the same is
remembered, and is not the watchdog's. -/
theorem AgreesOn.output_eq (h : AgreesOn on m n)
    (ha : ∀ c, arrival.signal.condition? = some c → on c)
    (hlog : Monitor.watchdog.accepts arrival.signal.name = true → m.state.noLog = n.state.noLog) :
    m.output arrival = n.output arrival ∧
      (m.state.noLog = n.state.noLog → (m.react arrival).monitors.state.noLog
        = (n.react arrival).monitors.state.noLog) := by
  rw [output, output, Monitors.react, Monitors.react, dispatch_eq, dispatch_eq, h.handler?_eq,
    h.config_eq]
  cases hh : n.handler? arrival.signal with
  | none => exact ⟨rfl, id⟩
  | some handler =>
    have haccepts := accepts_of_handler? hh
    obtain ⟨hresult, hqueries, hnext⟩ := Monitor.process_congr n.config.enabledSource
      arrival.peers haccepts (fun c hc => h.mem_iff c (ha c hc))
      fun hwatchdog => hlog (hwatchdog ▸ haccepts)
    simp only [hresult, hqueries]
    exact ⟨trivial, hnext⟩

/-- A signal that the watchdog's monitor does not accept leaves the wish not to log. -/
theorem noLog_react (m : Monitors)
    (h : Monitor.watchdog.accepts arrival.signal.name = false) :
    (m.react arrival).monitors.state.noLog = m.state.noLog := by
  rw [react, dispatch_eq]
  cases hh : m.handler? arrival.signal with
  | none => rfl
  | some handler =>
    refine Monitor.noLog_process ?_ _ _ _ _
    rintro rfl
    rw [accepts_of_handler? hh] at h
    cases h

/-- Signals about thresholds and about the host's errors are not the watchdog's. -/
theorem not_watchdog_of_isAbout {condition : Condition} (hkind : condition.kind ∈ reportedKinds)
    (h : arrival.isAbout condition = true) :
    Monitor.watchdog.accepts arrival.signal.name = false := by
  rw [Bool.eq_false_iff]
  exact fun haccepts => Monitor.ne_watchdog_of_condition? haccepts (Arrival.isAbout_iff.mp h)
    hkind rfl

/-! ## Runs without the signals about other conditions -/

/-- Behind two runs that agree on a condition, each with the signals about it, the same is
remembered of it; and the outputs on these signals are the same. -/
theorem outputs_filter {condition : Condition} (hkind : condition.kind ∈ reportedKinds)
    (h : AgreesOn (· = condition) m n) (arrivals : List Arrival) :
    (m.outputs arrivals).filter (·.arrival.isAbout condition)
        = n.outputs (arrivals.filter (·.isAbout condition)) ∧
      AgreesOn (· = condition) (m.after arrivals)
        (n.after (arrivals.filter (·.isAbout condition))) := by
  induction arrivals generalizing m n with
  | nil => exact ⟨rfl, h⟩
  | cons arrival arrivals ih =>
    rw [outputs_cons, after_cons]
    cases habout : arrival.isAbout condition with
    | true =>
      -- Both runs see the signal, and both remembered the same of its condition.
      have hcondition := Arrival.isAbout_iff.mp habout
      have ha (c : Condition) (hc : arrival.signal.condition? = some c) : c = condition :=
        Option.some.inj (hc.symm.trans hcondition)
      have houtput := (h.output_eq ha fun haccepts => by
        rw [not_watchdog_of_isAbout hkind habout] at haccepts
        cases haccepts).1
      obtain ⟨hrest, hafter⟩ := ih (h.react ha)
      rw [List.filter_cons_of_pos habout, List.filter_cons_of_pos (by exact habout), outputs_cons,
        after_cons, hrest, houtput]
      exact ⟨rfl, hafter⟩
    | false =>
      -- Only the first run sees the signal, which leaves the condition as it is.
      have ha (c : Condition) (hc : arrival.signal.condition? = some c) : ¬ c = condition := by
        rintro rfl
        rw [Arrival.isAbout_iff.mpr hc] at habout
        cases habout
      have hnot : ¬ arrival.isAbout condition = true := by simp [habout]
      rw [List.filter_cons_of_neg hnot, List.filter_cons_of_neg (by exact hnot)]
      exact ih ((agreesOn_react_self m ha).trans h)

/-! ## Signals that change places -/

/-- Monitors that cannot be told apart: they remember the same. -/
structure Alike (m n : Monitors) : Prop extends AgreesOn (fun _ => True) m n where
  noLog_eq : m.state.noLog = n.state.noLog

/-- Monitors that are alike make the same of every run, and stay alike. -/
theorem Alike.outputs_eq (h : Alike m n) (arrivals : List Arrival) :
    m.outputs arrivals = n.outputs arrivals ∧ Alike (m.after arrivals) (n.after arrivals) := by
  induction arrivals generalizing m n with
  | nil => exact ⟨rfl, h⟩
  | cons arrival arrivals ih =>
    have hall : ∀ c, arrival.signal.condition? = some c → True := fun _ _ => trivial
    obtain ⟨houtput, hlog⟩ := h.output_eq hall fun _ => h.noLog_eq
    have hnext : Alike (m.react arrival).monitors (n.react arrival).monitors :=
      ⟨h.toAgreesOn.react fun _ _ => trivial, hlog h.noLog_eq⟩
    obtain ⟨hrest, hafter⟩ := ih hnext
    rw [outputs_cons, outputs_cons, houtput, hrest]
    exact ⟨rfl, hafter⟩

/-- Signals about different conditions lead to the same, in either order. -/
theorem alike_of_swap {k l : Condition} {x y : Arrival} (hk : k.kind ∈ reportedKinds)
    (hl : l.kind ∈ reportedKinds) (hne : k ≠ l) (hx : x.isAbout k = true)
    (hy : y.isAbout l = true) (m : Monitors) :
    (m.output x = (m.react y).monitors.output x ∧ (m.react x).monitors.output y = m.output y) ∧
      Alike ((m.react x).monitors.react y).monitors ((m.react y).monitors.react x).monitors := by
  have hxk (c : Condition) (hc : x.signal.condition? = some c) : c = k :=
    Option.some.inj (hc.symm.trans (Arrival.isAbout_iff.mp hx))
  have hyl (c : Condition) (hc : y.signal.condition? = some c) : c = l :=
    Option.some.inj (hc.symm.trans (Arrival.isAbout_iff.mp hy))
  have hxlog := not_watchdog_of_isAbout hk hx
  have hylog := not_watchdog_of_isAbout hl hy
  have hnot {b : Bool} (hb : b = false) {p : Prop} (h : b = true) : p := by rw [hb] at h; cases h
  -- Neither signal touches the condition of the other one.
  have hbefore : AgreesOn (· = k) m (m.react y).monitors :=
    (agreesOn_react_self m fun c hc => by rw [hyl c hc]; exact hne.symm).symm
  have hbehind : AgreesOn (· = l) (m.react x).monitors m :=
    agreesOn_react_self m fun c hc => by rw [hxk c hc]; exact hne
  refine ⟨⟨(hbefore.output_eq hxk (hnot hxlog)).1, (hbehind.output_eq hyl (hnot hylog)).1⟩,
    ⟨by simp [react], fun c _ => ?_⟩, by rw [noLog_react _ hylog, noLog_react _ hxlog,
      noLog_react _ hxlog, noLog_react _ hylog]⟩
  by_cases hck : c = k
  · have hlast : AgreesOn (· = k) ((m.react x).monitors.react y).monitors (m.react x).monitors :=
      agreesOn_react_self _ fun c hc => by rw [hyl c hc]; exact hne.symm
    exact (hlast.trans (hbefore.react hxk)).mem_iff c hck
  by_cases hcl : c = l
  · have hlast : AgreesOn (· = l) (m.react y).monitors ((m.react y).monitors.react x).monitors :=
      (agreesOn_react_self _ fun c hc => by rw [hxk c hc]; exact hne).symm
    exact ((hbehind.react hyl).trans hlast).mem_iff c hcl
  · have hother (m : Monitors) {a : Arrival} (ha : a = x ∨ a = y) :
        AgreesOn (· = c) (m.react a).monitors m :=
      agreesOn_react_self m fun d hd hdc => by
        subst hdc
        rcases ha with rfl | rfl
        · exact hck (hxk d hd)
        · exact hcl (hyl d hd)
    have hforth := (hother (m.react x).monitors (.inr rfl)).trans (hother m (.inl rfl))
    have hback := (hother (m.react y).monitors (.inl rfl)).trans (hother m (.inr rfl))
    exact (hforth.trans hback.symm).mem_iff c rfl

/-- Alarms and the host's power are about no condition. -/
theorem condition?_of_untracked {handler : Monitor} {signal : Signal}
    (haccepts : handler.accepts signal.name = true)
    (h : handler = .thresholdAlarm ∨ handler = .power) : signal.condition? = none := by
  rw [Monitor.condition?_of_accepts haccepts]
  rcases hdecode : handler.decode signal with e | _ | event
  · rfl
  · rfl
  · rcases h with rfl | rfl
    · obtain ⟨read, -, hevent⟩ := Step.bind_eq_ok.mp hdecode
      obtain ⟨c, -, rfl⟩ := Option.map_eq_some_iff.mp (Except.ok.inj hevent)
      rfl
    · obtain ⟨read, -, hevent⟩ := Step.bind_eq_ok.mp hdecode
      obtain ⟨e, -, rfl⟩ := Option.map_eq_some_iff.mp (Except.ok.inj hevent)
      rfl

/-- **Sources of events do not disturb one another.**  Of a threshold or a host's error,
the monitors report in every run what they report without the signals about anything
else, ask the same questions, and remember the same at its end.  Two signals in a
row about different ones can change places: all outputs stay, and the same conditions
stand at the end.  What comes of an alarm or the host's power has nothing to do with
the signals before it. -/
theorem sources_are_separate (m : Monitors) :
    (∀ (k : Condition) (arrivals : List Arrival), k.kind ∈ reportedKinds →
      (m.outputs arrivals).filter (·.arrival.isAbout k)
          = m.outputs (arrivals.filter (·.isAbout k)) ∧
        (k ∈ (m.after arrivals).state.assertions ↔
          k ∈ (m.after (arrivals.filter (·.isAbout k))).state.assertions)) ∧
    (∀ (k l : Condition) (x y : Arrival) (front back : List Arrival),
      k.kind ∈ reportedKinds → l.kind ∈ reportedKinds → k ≠ l →
      x.isAbout k = true → y.isAbout l = true →
      ∃ before ofX ofY behind,
        m.outputs (front ++ x :: y :: back) = before ++ ofX :: ofY :: behind ∧
        m.outputs (front ++ y :: x :: back) = before ++ ofY :: ofX :: behind ∧
        before.map (·.arrival) = front ∧ ofX.arrival = x ∧ ofY.arrival = y ∧
        behind.map (·.arrival) = back ∧
        ∀ c, c ∈ (m.after (front ++ x :: y :: back)).state.assertions ↔
          c ∈ (m.after (front ++ y :: x :: back)).state.assertions) ∧
    ∀ (arrival : Arrival) (earlier : List Arrival),
      Monitor.thresholdAlarm.accepts arrival.signal.name = true ∨
        Monitor.power.accepts arrival.signal.name = true →
      (m.after earlier).output arrival = (fresh m.config).output arrival := by
  refine ⟨fun k arrivals hk => ?_, fun k l x y front back hk hl hne hx hy => ?_,
    fun arrival earlier h => ?_⟩
  · obtain ⟨houtputs, hafter⟩ := outputs_filter hk (.refl _ m) arrivals
    exact ⟨houtputs, hafter.mem_iff k rfl⟩
  · obtain ⟨⟨hofX, hofY⟩, halike⟩ := alike_of_swap hk hl hne hx hy (m.after front)
    obtain ⟨hbehind, hlast⟩ := halike.outputs_eq back
    refine ⟨m.outputs front, (m.after front).output x, (m.after front).output y,
      (((m.after front).react x).monitors.react y).monitors.outputs back, ?_, ?_,
      map_arrival_outputs m front, rfl, rfl, map_arrival_outputs _ back, fun c => ?_⟩
    · rw [outputs_append, outputs_cons, outputs_cons, hofY]
    · rw [outputs_append, outputs_cons, outputs_cons, ← hofX, ← hbehind]
    · rw [after_append, after_append]
      exact hlast.mem_iff c trivial
  · obtain ⟨handler, haccepts, huntracked⟩ : ∃ handler : Monitor,
        handler.accepts arrival.signal.name = true ∧
          (handler = .thresholdAlarm ∨ handler = .power) :=
      h.elim (fun h => ⟨_, h, .inl rfl⟩) fun h => ⟨_, h, .inr rfl⟩
    have hagrees : AgreesOn (fun _ => False) (m.after earlier) (fresh m.config) :=
      ⟨m.config_after earlier, fun _ hc => hc.elim⟩
    have hcondition := condition?_of_untracked haccepts huntracked
    refine (hagrees.output_eq (fun c hc => ?_) fun hwatchdog => ?_).1
    · rw [hcondition] at hc
      cases hc
    · obtain rfl := Monitor.eq_of_accepts haccepts hwatchdog
      rcases huntracked with h | h <;> cases h

/-- Errors of two processors that come one behind the other, with a watchdog that is
enabled before them and the power going on behind them. -/
theorem separate_for_two_processors :
    let arrival (path interface property : String) (value : Value) : Arrival :=
      ⟨.propertiesChanged ":1.7" path interface [(property, value)],
        { Peers.unavailable "down" with properties := fun _ _ _ => .ok [] }⟩
    let x := arrival "/cpu0" (HostError.interface "IERR") "Asserted" (.bool true)
    let y := arrival "/cpu1" (HostError.interface "IERR") "Asserted" (.bool true)
    let watchdog := arrival "/cpu0" Watchdog.stateInterface "Enabled" (.bool true)
    let power := arrival "/host0" PowerEvent.hostInterface "CurrentHostState"
      (.str PowerEvent.on.state)
    let k : Condition := ⟨"/cpu0", "IERR"⟩
    let m := fresh .default
    ((m.outputs [watchdog, x, y, power]).map (·.notices.length) = [1, 1, 1, 1]) ∧
    (m.outputs [watchdog, x, y, power]).filter (·.arrival.isAbout k) = m.outputs [x] ∧
    (∃ before ofX ofY behind,
      m.outputs [watchdog, x, y, power] = before ++ ofX :: ofY :: behind ∧
      m.outputs [watchdog, y, x, power] = before ++ ofY :: ofX :: behind ∧
      before.map (·.arrival) = [watchdog] ∧ behind.map (·.arrival) = [power]) ∧
    (m.after [watchdog, x, y]).output power = m.output power := by
  intro arrival x y watchdog power k m
  have hx : x.isAbout k = true := by decide +kernel
  have hy : y.isAbout ⟨"/cpu1", "IERR"⟩ = true := by decide +kernel
  have hothers : [watchdog, x, y, power].filter (·.isAbout k) = [x] := by
    have hw : watchdog.isAbout k = false := by decide +kernel
    have hyk : y.isAbout k = false := by
      rw [Arrival.isAbout, Arrival.isAbout_iff.mp hy]
      decide
    have hp : power.isAbout k = false := by decide +kernel
    simp [hw, hx, hyk, hp]
  have hpower : Monitor.power.accepts power.signal.name = true := by decide +kernel
  obtain ⟨hfilter, hswap, huntracked⟩ := sources_are_separate m
  obtain ⟨before, ofX, ofY, behind, hfirst, hsecond, hbefore, -, -, hbehind, -⟩ :=
    hswap k ⟨"/cpu1", "IERR"⟩ x y [watchdog] [power] (by decide) (by decide) (by decide) hx hy
  have hrest := (hfilter k [watchdog, x, y, power] (by decide)).1
  rw [hothers] at hrest
  exact ⟨by decide +kernel, hrest, ⟨before, ofX, ofY, behind, hfirst, hsecond, hbefore, hbehind⟩,
    huntracked power [watchdog, x, y] (.inr hpower)⟩

end Monitors

end EventLog
