import EventLog.Peer.Registry
import EventLog.Proofs.Named
import Mathlib.Data.Finset.Card
import Mathlib.Data.List.DropRight
import Mathlib.Data.List.Induction

/-!
# EventLog.Proofs.Peer.Registry

What a registry answers behind any run of what peers do with it.

* `published`: what was published of an interface since its object was removed last,
  one list of properties for each time;
* `object?_perform`: what one operation changes of an interface;
* `object?_after`: an interface has what was published of it, the later over the
  earlier, and is unknown if nothing was, not even an empty list;
* `find?_replies_after`: the reply to a command is the one that was published last;
* `objectCount_eq_card`: paths in order are counted by their runs;
* `last_write_wins`: all of it together, as the peers answer.
-/

namespace EventLog

/-! ## Runs of equal elements -/

section Runs

variable {α : Type} [BEq α]

/-- The loop that drops repeats puts what is left behind what is done. -/
theorem loop_eq_append_eraseReps (a : α) (rest done : List α) :
    List.eraseRepsBy.loop (· == ·) a rest done = done.reverse ++ (a :: rest).eraseReps := by
  induction rest generalizing a done with
  | nil => rw [List.eraseRepsBy.loop, List.reverse_cons]; rfl
  | cons b rest ih =>
    have hruns : (a :: b :: rest).eraseReps = List.eraseRepsBy.loop (· == ·) a (b :: rest) [] := rfl
    rw [hruns]
    simp only [List.eraseRepsBy.loop]
    cases a == b with
    | true => exact ih a done
    | false => simp [ih b]

/-- An element that is followed by an equal one is left out. -/
theorem eraseReps_cons_cons (a b : α) (rest : List α) :
    (a :: b :: rest).eraseReps =
      if a == b then (a :: rest).eraseReps else a :: (b :: rest).eraseReps := by
  have hruns : (a :: b :: rest).eraseReps = List.eraseRepsBy.loop (· == ·) a (b :: rest) [] := rfl
  rw [hruns]
  simp only [List.eraseRepsBy.loop]
  cases a == b with
  | true => rfl
  | false => exact loop_eq_append_eraseReps b rest [a]

variable [LawfulBEq α]

theorem mem_eraseReps {l : List α} {x : α} : x ∈ l.eraseReps ↔ x ∈ l := by
  cases l with
  | nil => rfl
  | cons a rest =>
    induction rest generalizing a with
    | nil => rfl
    | cons b rest ih =>
      rw [eraseReps_cons_cons]
      split
      · next h =>
        rw [ih a, beq_iff_eq.mp h]
        simp
      · rw [List.mem_cons, ih b, ← List.mem_cons]

/-- In a list that is in order, equal elements stand next to each other. -/
theorem nodup_eraseReps {le : α → α → Prop} (hanti : ∀ {a b}, le a b → le b a → a = b)
    {l : List α} (h : l.Pairwise le) : l.eraseReps.Nodup := by
  cases l with
  | nil => exact .nil
  | cons a rest =>
    induction rest generalizing a with
    | nil => exact List.nodup_singleton a
    | cons b rest ih =>
      obtain ⟨hfirst, hrest⟩ := List.pairwise_cons.mp h
      obtain ⟨hb, htail⟩ := List.pairwise_cons.mp hrest
      rw [eraseReps_cons_cons]
      split
      · refine ih a (List.pairwise_cons.mpr ⟨fun c hc => ?_, htail⟩)
        exact hfirst c (List.mem_cons_of_mem b hc)
      · next hne =>
        refine List.nodup_cons.mpr ⟨fun hm => hne (beq_iff_eq.mpr ?_), ih b hrest⟩
        rcases List.mem_cons.mp (mem_eraseReps.mp hm) with rfl | hm
        · rfl
        · exact hanti (hfirst b List.mem_cons_self) (hb a hm)

end Runs

namespace Registry

variable {r : Registry} {path interface : String}

/-! ## What peers do -/

/-- What peers do with a registry. -/
inductive Op where
  | set (path interface : String) (properties : Properties)
  | setOne (path interface name : String) (value : Value)
  | remove (path : String)
  | setReply (reply : CommandReply)

namespace Op

/-- What an operation publishes of an interface, if it does. -/
def published? (path interface : String) : Op → Option Properties
  | .set p i properties => if p = path ∧ i = interface then some properties else none
  | .setOne p i name value => if p = path ∧ i = interface then some [(name, value)] else none
  | .remove _ | .setReply _ => none

/-- Whether an operation removes an object. -/
def removes (path : String) : Op → Bool
  | .remove p => p == path
  | .set .. | .setOne .. | .setReply _ => false

/-- The reply that an operation publishes. -/
def reply? : Op → Option CommandReply
  | .setReply reply => some reply
  | .set .. | .setOne .. | .remove _ => none

end Op

/-- Carries an operation out. -/
def perform (r : Registry) : Op → Registry
  | .set path interface properties => r.set path interface properties
  | .setOne path interface name value => r.setOne path interface name value
  | .remove path => r.remove path
  | .setReply reply => r.setReply reply

/-- The registry behind a run. -/
def after (ops : List Op) : Registry := ops.foldl perform empty

/-- What a run published of an interface since it removed the object last, one list of
properties for each time. -/
def published (ops : List Op) (path interface : String) : List Properties :=
  (ops.rtakeWhile (!·.removes path)).filterMap (·.published? path interface)

theorem after_concat (ops : List Op) (op : Op) : after (ops ++ [op]) = (after ops).perform op :=
  List.foldl_concat ..

/-- What a run has published for an interface, behind one operation more. -/
theorem published_concat (ops : List Op) (op : Op) (path interface : String) :
    published (ops ++ [op]) path interface =
      if op.removes path then []
      else published ops path interface ++ (op.published? path interface).toList := by
  rw [published, List.rtakeWhile_concat]
  cases op.removes path with
  | true => rfl
  | false => simp [published, List.filterMap_append]; rfl

/-! ## Interfaces -/

/-- What is published for an interface is merged into what it has, and leaves the others. -/
theorem object?_set (r : Registry) (p i path interface : String) (properties : Properties) :
    (r.set p i properties).object? path interface =
      if p = path ∧ i = interface then
        some (Named.merge ((r.object? path interface).getD []) properties)
      else r.object? path interface := by
  split
  · next h =>
    obtain ⟨rfl, rfl⟩ := h
    exact r.object?_set_self p i properties
  · next h =>
    refine r.object?_set_of_ne ?_ properties
    rw [not_and_or] at h
    exact h.imp (Ne.symm ·) (Ne.symm ·)

/-- **What one operation changes of an interface.** -/
theorem object?_perform (r : Registry) (op : Op) (path interface : String) :
    (r.perform op).object? path interface =
      if op.removes path then none
      else match op.published? path interface with
        | some properties => some (Named.merge ((r.object? path interface).getD []) properties)
        | none => r.object? path interface := by
  cases op with
  | set p i properties =>
    rw [perform, object?_set, Op.removes, if_neg Bool.false_ne_true, Op.published?]
    split <;> rfl
  | setOne p i name value =>
    rw [perform, setOne, object?_set, Op.removes, if_neg Bool.false_ne_true, Op.published?]
    split <;> rfl
  | remove p =>
    rw [perform, object?_remove, Op.removes, Op.published?]
    by_cases h : path = p
    · rw [if_pos h, if_pos (beq_iff_eq.mpr h.symm)]
    · rw [if_neg h, if_neg fun heq => h (beq_iff_eq.mp heq).symm]
  | setReply reply => rfl

/-- **An interface has what was published of it** since the object was removed last. -/
theorem object?_after (ops : List Op) (path interface : String) :
    (after ops).object? path interface =
      if published ops path interface = [] then none
      else some (Named.ofList (published ops path interface).flatten) := by
  induction ops using List.reverseRecOn with
  | nil => rfl
  | append_singleton ops op ih =>
    rw [after_concat, object?_perform, published_concat, ih]
    cases op.removes path with
    | true => rfl
    | false =>
      cases op.published? path interface with
      | none => simp
      | some properties =>
        have hne : published ops path interface ++ [properties] ≠ [] := List.concat_ne_nil _ _
        simp only [Bool.false_eq_true, if_false, Option.toList_some, if_neg hne,
          List.flatten_append, List.flatten_singleton, ← Named.merge_ofList]
        by_cases hnil : published ops path interface = []
        · rw [if_pos hnil, hnil]
          rfl
        · rw [if_neg hnil]
          rfl

/-- All properties of an interface are what was published of it, the later over the earlier. -/
theorem properties_after (ops : List Op) (path interface : String) :
    (after ops).properties path interface =
      if published ops path interface = [] then .error (.unknownInterface path interface)
      else .ok (Named.ofList (published ops path interface).flatten) := by
  rw [properties, object?_after]
  by_cases hnil : published ops path interface = []
  · rw [if_pos hnil, if_pos hnil]
  · rw [if_neg hnil, if_neg hnil]

/-- A property of an interface is what was published of it last. -/
theorem property_after (ops : List Op) (path interface name : String) :
    (after ops).property path interface name =
      if published ops path interface = [] then .error (.unknownInterface path interface)
      else match Named.lastOf? name (published ops path interface).flatten with
        | some value => .ok value
        | none => .error (.unknownProperty path interface name) := by
  rw [property, properties_after]
  split
  · rfl
  · rw [← Named.find?_ofList]
    rfl

/-! ## Replies -/

theorem answers_iff {netfn cmd : UInt8} {reply : CommandReply} :
    answers netfn cmd reply = true ↔ reply.netfn = netfn ∧ reply.cmd = cmd := by
  rw [answers, Bool.and_eq_true, beq_iff_eq, beq_iff_eq]

/-- A new reply takes the place of the one to the same command. -/
theorem find?_setReply (r : Registry) (reply : CommandReply) (netfn cmd : UInt8) :
    (r.setReply reply).replies.find? (answers netfn cmd) =
      if answers netfn cmd reply then some reply else r.replies.find? (answers netfn cmd) := by
  rw [setReply, List.find?_cons]
  cases h : answers netfn cmd reply with
  | true => rfl
  | false =>
    -- Only replies to the same command are dropped, and none of them is asked for.
    have hkeeps : ∀ other, answers netfn cmd other = true →
        answers reply.netfn reply.cmd other = false := by
      intro other hother
      refine Bool.eq_false_iff.mpr fun hsame => Bool.eq_false_iff.mp h ?_
      rw [answers_iff] at hother hsame ⊢
      exact ⟨hsame.1.symm.trans hother.1, hsame.2.symm.trans hother.2⟩
    rw [List.find?_filter]
    refine congrArg (r.replies.find? ·) (funext fun other => ?_)
    cases hother : answers netfn cmd other with
    | true => simp [hkeeps other hother]
    | false => simp

/-- The reply to a command is the one that was published last. -/
theorem find?_replies_after (ops : List Op) (netfn cmd : UInt8) :
    (after ops).replies.find? (answers netfn cmd) =
      (ops.filterMap Op.reply?).reverse.find? (answers netfn cmd) := by
  induction ops using List.reverseRecOn with
  | nil => rfl
  | append_singleton ops op ih =>
    rw [after_concat, List.filterMap_append, List.reverse_append]
    cases op with
    | setReply reply =>
      rw [perform, find?_setReply, ih]
      simp only [List.filterMap_cons, Op.reply?, List.filterMap_nil, List.reverse_singleton,
        List.singleton_append, List.find?_cons]
      cases answers netfn cmd reply <;> rfl
    | set p i properties => exact ih
    | setOne p i name value => exact ih
    | remove p => exact ih

/-! ## Objects -/

/-- A key is missing exactly if no entry has it. -/
theorem lookup_eq_none_iff {key : InterfaceKey} {objects : List (InterfaceKey × Properties)} :
    lookup key objects = none ↔ ∀ entry ∈ objects, entry.1 ≠ key := by
  induction objects with
  | nil => exact iff_of_true rfl fun entry hm => absurd hm List.not_mem_nil
  | cons entry rest ih =>
    rw [lookup, List.forall_mem_cons]
    split
    · next h => exact iff_of_false (by simp) fun hall => hall.1 h.symm
    · next h => rw [ih, and_iff_right (Ne.symm h)]

/-- The paths among the keys are those of which an interface is known. -/
theorem mem_paths_iff :
    path ∈ r.objects.map (·.1.path) ↔ ∃ interface, r.object? path interface ≠ none := by
  simp only [object?, ne_eq, lookup_eq_none_iff, not_forall, not_not, List.mem_map]
  constructor
  · rintro ⟨⟨key, properties⟩, hm, rfl⟩
    exact ⟨key.interface, _, hm, rfl⟩
  · rintro ⟨interface, entry, hm, hkey⟩
    exact ⟨entry, hm, by rw [hkey]⟩

/-- **Paths in order are counted by their runs.** -/
theorem objectCount_eq_card (r : Registry) :
    r.objectCount = (r.objects.map (·.1.path)).toFinset.card := by
  have hpaths : (r.objects.map (·.1.path)).Pairwise (· ≤ ·) := by
    refine List.pairwise_map.mpr (r.inOrder.imp fun hbefore => ?_)
    rcases hbefore with hlt | ⟨heq, -⟩
    · exact String.not_lt.mp (String.lt_asymm hlt)
    · exact heq ▸ String.le_refl _
  have hruns := nodup_eraseReps String.le_antisymm hpaths
  rw [objectCount, ← List.toFinset_card_of_nodup hruns]
  congr 1
  ext path
  rw [List.mem_toFinset, List.mem_toFinset, mem_eraseReps]

/-! ## Answers -/

/-- **The last write wins.**  Behind any run, a property of an interface has the value that
was written last since the object was removed last; it is unknown if there is none, and so
is the interface if nothing was published of it since, not even an empty list.  All
properties of an interface are those, each once.  The removal of an object changes no
other object.  A command has the reply that was published last, and as many objects are
counted as there are paths with an interface. -/
theorem last_write_wins (ops : List Op) :
    (∀ service path interface name,
      (after ops).peers.property service path interface name =
        if published ops path interface = [] then .error (.unknownInterface path interface)
        else match Named.lastOf? name (published ops path interface).flatten with
          | some value => .ok value
          | none => .error (.unknownProperty path interface name)) ∧
    (∀ service path interface,
      if published ops path interface = [] then
        (after ops).peers.properties service path interface =
          .error (.unknownInterface path interface)
      else ∃ properties, (after ops).peers.properties service path interface = .ok properties ∧
        Named.Sorted properties ∧
        ∀ name value, (name, value) ∈ properties ↔
          Named.lastOf? name (published ops path interface).flatten = some value) ∧
    (∀ path other, other ≠ path → ∀ service interface,
      ((after ops).remove path).peers.properties service other interface =
        (after ops).peers.properties service other interface ∧
      ∀ name, ((after ops).remove path).peers.property service other interface name =
        (after ops).peers.property service other interface name) ∧
    (∀ netfn lun cmd data,
      (after ops).peers.command netfn lun cmd data =
        match (ops.filterMap Op.reply?).reverse.find? (answers netfn cmd) with
        | some reply => .ok reply
        | none => .error (.noCommandReply netfn cmd)) ∧
    ∃ paths : Finset String, (after ops).objectCount = paths.card ∧
      ∀ path, path ∈ paths ↔ ∃ interface, published ops path interface ≠ [] := by
  refine ⟨fun _ => property_after ops, fun service path interface => ?_,
    fun path other hne service interface => ?_, fun netfn lun cmd data => ?_, _,
    objectCount_eq_card _, fun path => ?_⟩
  · have hafter : (after ops).peers.properties service path interface = _ :=
      properties_after ops path interface
    split
    · next h => rw [hafter, if_pos h]
    · next h =>
      refine ⟨_, hafter.trans (if_neg h), Named.sorted_ofList _, fun name value => ?_⟩
      rw [Named.mem_iff_find? (Named.sorted_ofList _), Named.find?_ofList]
  · have hsame : ((after ops).remove path).properties other interface =
        (after ops).properties other interface := by
      rw [properties, properties, object?_remove, if_neg hne]
    exact ⟨hsame, fun name => congrArg (· >>= _) hsame⟩
  · have hafter := find?_replies_after ops netfn cmd
    rw [← hafter]
    rfl
  · rw [List.mem_toFinset, mem_paths_iff]
    refine exists_congr fun interface => ?_
    rw [object?_after]
    split
    · next h => exact iff_of_false (fun hne => hne rfl) fun hne => hne h
    · next h => exact iff_of_true (by simp) h

/-- An empty list of properties makes an interface known, but not that of a removed object. -/
example :
    let r := after [.setOne "/fan" "Sensor" "Value" (.bool true), .remove "/fan",
      .set "/fan" "Sensor" []]
    (r.object? "/fan" "Sensor").map List.length = some 0 ∧ r.objectCount = 1 := by
  decide +kernel

end Registry

end EventLog
