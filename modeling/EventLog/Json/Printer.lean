import EventLog.Json.Basic

/-!
# EventLog.Json.Printer

Writing JSON text, compact or with two blanks of indentation for each level.
Of a string only quotes, backslashes and control characters are escaped.
-/

namespace EventLog.Json

/-- A character as it stands in a string. -/
def escapedChar (c : Char) : List Char :=
  if c = '"' then ['\\', '"']
  else if c = '\\' then ['\\', '\\']
  else if c.toNat = 8 then ['\\', 'b']
  else if c = '\t' then ['\\', 't']
  else if c = '\n' then ['\\', 'n']
  else if c.toNat = 12 then ['\\', 'f']
  else if c = '\r' then ['\\', 'r']
  else if c.toNat < 0x20 then
    ['\\', 'u', '0', '0', Nat.digitChar (c.toNat / 16), Nat.digitChar (c.toNat % 16)]
  else [c]

def stringText (s : String) : List Char := '"' :: s.toList.flatMap escapedChar ++ ['"']

/-- A string in quotes; one without a text is written empty. -/
def stringText? : Option String → List Char
  | some s => stringText s
  | none => ['"', '"']

/-- A number as it was written. -/
def numberText (n : JsonNumber) : List Char :=
  (if n.negative then ['-'] else []) ++ n.whole
    ++ (if n.fraction.isEmpty then [] else '.' :: n.fraction)
    ++ (if n.exponent.isEmpty then [] else 'e' :: n.exponent)

mutual

/-- A value without blanks. -/
def compactChars : Json → List Char
  | .null => ['n', 'u', 'l', 'l']
  | .bool true => ['t', 'r', 'u', 'e']
  | .bool false => ['f', 'a', 'l', 's', 'e']
  | .number n => numberText n
  | .string s => stringText? s
  | .array items => '[' :: compactItems items ++ [']']
  | .object members => '\x7b' :: compactMembers members ++ ['\x7d']

/-- Items with commas between them. -/
def compactItems : List Json → List Char
  | [] => []
  | [item] => compactChars item
  | item :: other :: rest => compactChars item ++ ',' :: compactItems (other :: rest)

/-- Members with commas between them. -/
def compactMembers : List (Option String × Json) → List Char
  | [] => []
  | [(name, value)] => stringText? name ++ ':' :: compactChars value
  | (name, value) :: other :: rest =>
    stringText? name ++ ':' :: compactChars value ++ ',' :: compactMembers (other :: rest)

end

/-- A value without blanks, as a string. -/
def compact (value : Json) : String := String.ofList (compactChars value)

/-- A new line with the indentation of a level. -/
def newLine (level : Nat) : List Char := '\n' :: List.replicate (2 * level) ' '

mutual

/-- A value with each item and member on a line of its own. -/
def prettyChars (level : Nat) : Json → List Char
  | .null => ['n', 'u', 'l', 'l']
  | .bool true => ['t', 'r', 'u', 'e']
  | .bool false => ['f', 'a', 'l', 's', 'e']
  | .number n => numberText n
  | .string s => stringText? s
  | .array [] => ['[', ']']
  | .array items => '[' :: prettyItems (level + 1) items ++ newLine level ++ [']']
  | .object [] => ['\x7b', '\x7d']
  | .object members =>
    '\x7b' :: prettyMembers (level + 1) members ++ newLine level ++ ['\x7d']

/-- Items, each on a line. -/
def prettyItems (level : Nat) : List Json → List Char
  | [] => []
  | [item] => newLine level ++ prettyChars level item
  | item :: other :: rest =>
    newLine level ++ prettyChars level item ++ ',' :: prettyItems level (other :: rest)

/-- Members, each on a line. -/
def prettyMembers (level : Nat) : List (Option String × Json) → List Char
  | [] => []
  | [(name, value)] =>
    newLine level ++ stringText? name ++ ':' :: ' ' :: prettyChars level value
  | (name, value) :: other :: rest =>
    newLine level ++ stringText? name ++ ':' :: ' ' :: prettyChars level value
      ++ ',' :: prettyMembers level (other :: rest)

end

/-- A value with each item and member on a line of its own, as a string. -/
def pretty (value : Json) : String := String.ofList (prettyChars 0 value)

end EventLog.Json
