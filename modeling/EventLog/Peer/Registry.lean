import EventLog.Peer.Query

/-!
# EventLog.Peer.Registry

What peers have published: properties of objects, by path and interface, and
replies to commands, by network function and command number.  New properties
are merged into those that an interface has.  The registry answers queries
whatever service they are for.

Interfaces are kept in the order of their keys, so those of one object stand next to
each other, and objects are counted as the runs of equal paths.

* `inOrder_mergeInto`: publishing keeps the order;
* `object?_set_self`, `object?_set_of_ne`: what publishing changes;
* `object?_remove`: what the removal of an object leaves.
-/

namespace EventLog

/-- The key of an object's interface. -/
structure InterfaceKey where
  path : String
  interface : String
  deriving DecidableEq, Repr

namespace InterfaceKey

/-- The order of keys: by the path, and for one path by the interface. -/
def Before (a b : InterfaceKey) : Prop :=
  a.path < b.path ∨ a.path = b.path ∧ a.interface < b.interface

instance (a b : InterfaceKey) : Decidable (a.Before b) := inferInstanceAs (Decidable (_ ∨ _))

variable {a b c : InterfaceKey}

theorem Before.trans (hab : a.Before b) (hbc : b.Before c) : a.Before c := by
  rcases hab with hab | ⟨hpath, hab⟩
  · rcases hbc with hbc | ⟨hpath, -⟩
    · exact .inl (String.lt_trans hab hbc)
    · exact .inl (hpath ▸ hab)
  · rcases hbc with hbc | ⟨hpath', hbc⟩
    · exact .inl (hpath ▸ hbc)
    · exact .inr ⟨hpath.trans hpath', String.lt_trans hab hbc⟩

theorem Before.ne (h : a.Before b) : a ≠ b := by
  rintro rfl
  rcases h with h | ⟨-, h⟩
  · exact String.lt_irrefl _ h
  · exact String.lt_irrefl _ h

theorem before_of_not_before (hne : a ≠ b) (h : ¬ a.Before b) : b.Before a := by
  rw [Before, not_or, not_and, String.not_lt] at h
  by_cases hlt : b.path < a.path
  · exact .inl hlt
  · have hpath : a.path = b.path := String.le_antisymm (String.not_lt.mp hlt) h.1
    have hle := String.not_lt.mp (h.2 hpath)
    refine .inr ⟨hpath.symm, Decidable.byContradiction fun hnot => hne ?_⟩
    have hinterface := String.le_antisymm (String.not_lt.mp hnot) hle
    cases a
    cases b
    exact congr (congrArg mk hpath) hinterface

end InterfaceKey

/-- Entries in the order of their keys, each key once. -/
def InOrder (objects : List (InterfaceKey × Properties)) : Prop :=
  objects.Pairwise fun a b => a.1.Before b.1

/-- Published properties and replies. -/
structure Registry where
  objects : List (InterfaceKey × Properties)
  inOrder : InOrder objects
  replies : List CommandReply

namespace Registry

/-- Nothing is published. -/
def empty : Registry := ⟨[], .nil, []⟩

/-- The properties of an interface among the published ones. -/
def lookup (key : InterfaceKey) : List (InterfaceKey × Properties) → Option Properties
  | [] => none
  | (other, properties) :: rest => if key = other then some properties else lookup key rest

def mergeInto (key : InterfaceKey) (properties : Properties) :
    List (InterfaceKey × Properties) → List (InterfaceKey × Properties)
  | [] => [(key, Named.ofList properties)]
  | (other, old) :: rest =>
    if key = other then (other, Named.merge old properties) :: rest
    else if key.Before other then (key, Named.ofList properties) :: (other, old) :: rest
    else (other, old) :: mergeInto key properties rest

/-- Merging adds no other key. -/
theorem of_mem_mergeInto {key : InterfaceKey} {properties : Properties}
    {objects : List (InterfaceKey × Properties)} {entry : InterfaceKey × Properties}
    (h : entry ∈ mergeInto key properties objects) :
    entry.1 = key ∨ ∃ old ∈ objects, entry.1 = old.1 := by
  induction objects with
  | nil =>
    obtain rfl := List.mem_singleton.mp h
    exact .inl rfl
  | cons first rest ih =>
    have hold {entry : InterfaceKey × Properties} (hm : entry ∈ first :: rest) :
        entry.1 = key ∨ ∃ old ∈ first :: rest, entry.1 = old.1 := .inr ⟨entry, hm, rfl⟩
    rw [mergeInto] at h
    split at h
    · next hkey =>
      rcases List.mem_cons.mp h with rfl | hm
      · exact .inl hkey.symm
      · exact hold (List.mem_cons_of_mem _ hm)
    split at h
    · rcases List.mem_cons.mp h with rfl | hm
      · exact .inl rfl
      · exact hold hm
    · rcases List.mem_cons.mp h with rfl | hm
      · exact hold List.mem_cons_self
      · exact (ih hm).imp_right fun ⟨old, hm, heq⟩ => ⟨old, List.mem_cons_of_mem _ hm, heq⟩

/-- Merging keeps the order of the keys. -/
theorem inOrder_mergeInto (key : InterfaceKey) (properties : Properties)
    {objects : List (InterfaceKey × Properties)} (h : InOrder objects) :
    InOrder (mergeInto key properties objects) := by
  induction objects with
  | nil => exact List.pairwise_singleton _ _
  | cons first rest ih =>
    obtain ⟨hfirst, hrest⟩ := List.pairwise_cons.mp h
    rw [mergeInto]
    split
    · exact List.pairwise_cons.mpr ⟨hfirst, hrest⟩
    split
    · next hbefore =>
      refine List.pairwise_cons.mpr ⟨fun entry hm => ?_, h⟩
      rcases List.mem_cons.mp hm with rfl | hm
      · exact hbefore
      · exact hbefore.trans (hfirst entry hm)
    · next hne hnot =>
      refine List.pairwise_cons.mpr ⟨fun entry hm => ?_, ih hrest⟩
      rcases of_mem_mergeInto hm with hkey | ⟨old, hm, hkey⟩
      · exact hkey ▸ InterfaceKey.before_of_not_before hne hnot
      · exact hkey ▸ hfirst old hm

def object? (r : Registry) (path interface : String) : Option Properties :=
  lookup ⟨path, interface⟩ r.objects

/-- Publishes properties of an object's interface. -/
def set (r : Registry) (path interface : String) (properties : Properties) : Registry where
  objects := mergeInto ⟨path, interface⟩ properties r.objects
  inOrder := inOrder_mergeInto _ _ r.inOrder
  replies := r.replies

/-- Publishes one property of an object's interface. -/
def setOne (r : Registry) (path interface name : String) (value : Value) : Registry :=
  r.set path interface [(name, value)]

def remove (r : Registry) (path : String) : Registry where
  objects := r.objects.filter fun (key, _) => key.path != path
  inOrder := r.inOrder.filter _
  replies := r.replies

def answers (netfn cmd : UInt8) (reply : CommandReply) : Bool :=
  reply.netfn == netfn && reply.cmd == cmd

/-- Publishes the reply to a command, in place of an earlier one. -/
def setReply (r : Registry) (reply : CommandReply) : Registry :=
  { r with
    replies := reply :: r.replies.filter fun other => !answers reply.netfn reply.cmd other }

/-- The number of objects: the runs of equal paths among the keys. -/
def objectCount (r : Registry) : Nat := (r.objects.map (·.1.path)).eraseReps.length

def properties (r : Registry) (path interface : String) : Except BusError Properties :=
  match r.object? path interface with
  | some properties => .ok properties
  | none => .error (.unknownInterface path interface)

def property (r : Registry) (path interface name : String) : Except BusError Value := do
  match Named.find? name (← r.properties path interface) with
  | some value => return value
  | none => throw (.unknownProperty path interface name)

def command (r : Registry) (netfn cmd : UInt8) : Except BusError CommandReply :=
  match r.replies.find? (answers netfn cmd) with
  | some reply => .ok reply
  | none => .error (.noCommandReply netfn cmd)

/-- The registry as the peers that answer queries. -/
def peers (r : Registry) : Peers where
  properties _ path interface := r.properties path interface
  property _ path interface name := r.property path interface name
  command netfn _ cmd _ := r.command netfn cmd

/-! ## What publishing changes -/

/-- A key that comes before all others is none of them. -/
theorem lookup_of_before {key : InterfaceKey} {objects : List (InterfaceKey × Properties)}
    (h : ∀ entry ∈ objects, key.Before entry.1) : lookup key objects = none := by
  induction objects with
  | nil => rfl
  | cons entry rest ih =>
    obtain ⟨hentry, hrest⟩ := List.forall_mem_cons.mp h
    rw [lookup, if_neg hentry.ne, ih hrest]

/-- What was published is merged into what an interface had. -/
theorem lookup_mergeInto_self (key : InterfaceKey) (properties : Properties)
    {objects : List (InterfaceKey × Properties)} (h : InOrder objects) :
    lookup key (mergeInto key properties objects) =
      some (Named.merge ((lookup key objects).getD []) properties) := by
  induction objects with
  | nil => simp [mergeInto, lookup, Named.ofList]
  | cons entry rest ih =>
    obtain ⟨other, old⟩ := entry
    obtain ⟨hother, hrest⟩ := List.pairwise_cons.mp h
    by_cases hkey : key = other
    · simp [mergeInto, lookup, hkey]
    · by_cases hbefore : key.Before other
      · have hnone : lookup key rest = none :=
          lookup_of_before fun entry hm => hbefore.trans (hother entry hm)
        simp [mergeInto, lookup, hkey, hbefore, hnone, Named.ofList]
      · simp [mergeInto, lookup, hkey, hbefore, ih hrest]

/-- Publishing leaves all other interfaces as they are. -/
theorem lookup_mergeInto_of_ne {key other : InterfaceKey} (h : other ≠ key)
    (properties : Properties) (objects : List (InterfaceKey × Properties)) :
    lookup other (mergeInto key properties objects) = lookup other objects := by
  induction objects with
  | nil => simp [mergeInto, lookup, h]
  | cons entry rest ih =>
    obtain ⟨k, old⟩ := entry
    by_cases hk : key = k
    · subst hk; simp [mergeInto, lookup, h]
    · by_cases hbefore : key.Before k
      · simp [mergeInto, lookup, h, hk, hbefore]
      · simp only [mergeInto, lookup, hk, hbefore, if_false, ih]

/-- Published properties are merged into those that were there. -/
theorem object?_set_self (r : Registry) (path interface : String) (properties : Properties) :
    (r.set path interface properties).object? path interface =
      some (Named.merge ((r.object? path interface).getD []) properties) :=
  lookup_mergeInto_self _ _ r.inOrder

/-- Publishing leaves every other interface alone. -/
theorem object?_set_of_ne (r : Registry) {path interface path' interface' : String}
    (h : path' ≠ path ∨ interface' ≠ interface) (properties : Properties) :
    (r.set path interface properties).object? path' interface' = r.object? path' interface' :=
  lookup_mergeInto_of_ne (fun e => by cases e; simp at h) ..

/-- The removal of an object takes its interfaces away and no others. -/
theorem object?_remove (r : Registry) (path path' interface : String) :
    (r.remove path).object? path' interface =
      if path' = path then none else r.object? path' interface := by
  simp only [object?, remove]
  induction r.objects with
  | nil => simp [lookup]
  | cons entry rest ih =>
    obtain ⟨key, properties⟩ := entry
    by_cases hk : key.path = path
    · simp only [List.filter_cons, hk, bne_self_eq_false, Bool.false_eq_true, if_false, ih]
      by_cases hp : path' = path
      · simp [hp]
      · have : (⟨path', interface⟩ : InterfaceKey) ≠ key := fun e => hp (by rw [← hk, ← e])
        simp [hp, lookup, this]
    · have hb : (key.path != path) = true := by simpa using hk
      simp only [List.filter_cons, hb, if_true, lookup, ih]
      by_cases hp : path' = path
      · have : (⟨path', interface⟩ : InterfaceKey) ≠ key := fun e => hk (by rw [← e]; exact hp)
        rw [if_neg this, if_pos hp, if_pos hp]
      · simp [hp]

end Registry

end EventLog
