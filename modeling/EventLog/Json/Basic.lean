import EventLog.Text.Numeral

/-!
# EventLog.Json.Basic

JSON values as they are written.  A number keeps its digits, an object the
order of its members and members of one name side by side.  A string whose
escapes name half of a surrogate pair has no text; it may stand where nothing
looks at it.
-/

namespace EventLog

/-- A number as it is written: digits in front of the point, digits behind it
if there is one, and the text behind the letter `e` if there is one. -/
structure JsonNumber where
  negative : Bool
  whole : List Char
  fraction : List Char
  exponent : List Char
  deriving DecidableEq, Repr

/-- A JSON value. -/
inductive Json where
  | null
  | bool (value : Bool)
  | number (value : JsonNumber)
  | string (text : Option String)
  | array (items : List Json)
  | object (members : List (Option String × Json))
  deriving Repr

namespace Json

def text (s : String) : Json := .string (some s)

def nat (n : Nat) : Json := .number ⟨false, Nat.toDigits 10 n, [], []⟩

def int : Int → Json
  | .ofNat n => nat n
  | .negSucc n => .number ⟨true, Nat.toDigits 10 (n + 1), [], []⟩

/-- An object of members whose names have texts. -/
def ofFields (members : List (String × Json)) : Json :=
  .object (members.map fun (name, value) => (some name, value))

/-- A value that may be missing, as `null` when it is. -/
def option {α : Type} (encode : α → Json) : Option α → Json
  | some a => encode a
  | none => .null

/-- The most brackets that may be open at one place. -/
def depthLimit : Nat := 127

end Json

end EventLog
