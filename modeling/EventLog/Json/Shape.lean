import EventLog.Json.Number
import EventLog.Json.Reader

/-!
# EventLog.Json.Shape

What readers of messages ask of a JSON value: whole numbers in a range,
strings with a text, and objects with named fields.

A field may appear once, other members are passed over, and a list of the
fields' values in their order may stand for the object.
-/

namespace EventLog.Json

mutual

/-- Whether all strings have texts, all numbers are in range, and no more
brackets are open at one place than allowed. -/
def isSound : Nat → Json → Bool
  | _, .null | _, .bool _ => true
  | _, .number n => n.isInRange
  | _, .string s => s.isSome
  | 0, .array _ | 0, .object _ => false
  | depth + 1, .array items => areSound depth items
  | depth + 1, .object members => areSoundMembers depth members

def areSound : Nat → List Json → Bool
  | _, [] => true
  | depth, item :: rest => isSound depth item && areSound depth rest

def areSoundMembers : Nat → List (Option String × Json) → Bool
  | _, [] => true
  | depth, (name, value) :: rest =>
    name.isSome && isSound depth value && areSoundMembers depth rest

end

def text? : Json → Option String
  | .string s => s
  | _ => none

def bool? : Json → Option Bool
  | .bool b => some b
  | _ => none

/-- A whole number in a range, both ends included. -/
def intWithin? (low high : Int) : Json → Option Int
  | .number n => n.toInt?.filter fun i => low ≤ i && i ≤ high
  | _ => none

def natBelow? (limit : Nat) (value : Json) : Option Nat :=
  (intWithin? 0 ((limit : Int) - 1) value).map Int.toNat

def byte? (value : Json) : Option UInt8 := (natBelow? 256 value).map UInt8.ofNat

def float? : Json → Option Float
  | .number n =>
    match n.toInt? with
    | some i => some (Float.ofInt i)
    | none => n.toFloat?
  | _ => none

/-- The items of an array, each read. -/
def items? {α : Type} (decode : Json → Option α) : Json → Option (List α)
  | .array items => items.mapM decode
  | _ => none

/-- Reads a value that may be `null`. -/
def nullable? {α : Type} (decode : Json → Option α) : Json → Option (Option α)
  | .null => some none
  | value => (decode value).map some

/-- The names of an object's members, if they all have texts. -/
def names? (members : List (Option String × Json)) : Option (List String) :=
  members.mapM (·.1)

/-- A member that must appear once at most. -/
def member? (name : String) (members : List (Option String × Json)) : Option (Option Json) :=
  match members.filter (·.1 == some name) with
  | [] => some none
  | [(_, value)] => some (some value)
  | _ => none

/-- The values of the named fields, in their order; a field that is missing
has none.  An array gives the fields by position, at least as many as are
required. -/
def fields? (fieldNames : List String) (required : Nat) : Json → Option (List (Option Json))
  | .object members => do
    let _ ← names? members
    fieldNames.mapM (member? · members)
  | .array items =>
    if required ≤ items.length ∧ items.length ≤ fieldNames.length then
      some (items.map some ++ List.replicate (fieldNames.length - items.length) none)
    else none
  | _ => none

/-- A choice from a list of names: its name, or an object whose one member is
the name with nothing in it.  Inside a message that was read as a whole before
it was understood, an empty object is nothing too. -/
def choice? (held : Bool) : Json → Option String
  | .string s => s
  | .object [(name, .null)] => name
  | .object [(name, .object [])] => if held then name else none
  | _ => none

end EventLog.Json
