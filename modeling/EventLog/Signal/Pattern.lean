import EventLog.Signal.Basic

/-!
# EventLog.Signal.Pattern

Patterns for the names of signals.  Pattern and name are cut at colons and
compared segment by segment: `*` stands for any one segment, `**` for whatever
is left of the name.  A pattern that is `*` or `**` as a whole matches every
name, and the empty pattern matches none.
-/

namespace EventLog

/-- A pattern for names of signals. -/
structure Pattern where
  text : String
  deriving DecidableEq, Repr

namespace Pattern

/-- The pattern of one member in one namespace. -/
def exact (member nameSpace : String) : Pattern := ⟨routingName member nameSpace⟩

/-- The pattern of one member in any namespace. -/
def anyOf (member : String) : Pattern := ⟨routingName member "*"⟩

/-- Whether the segments of a pattern match the segments of a name. -/
def matchSegments : List (List Char) → List (List Char) → Bool
  | [], [] => true
  | [], _ :: _ => false
  | p :: ps, name =>
    if p = ['*', '*'] then true
    else match name with
      | [] => false
      | s :: ss => (p = ['*'] || p = s) && matchSegments ps ss

def accepts (pattern : Pattern) (name : String) : Bool :=
  if pattern.text = "" then false
  else if pattern.text = "*" ∨ pattern.text = "**" then true
  else matchSegments (Text.fields ':' pattern.text.toList) (Text.fields ':' name.toList)

end Pattern

end EventLog
