import EventLog.Text.Shape

/-!
# EventLog.Text.Quoted

A text in double quotes, as messages show it: a backslash stands before a
quote or a backslash, the common controls have letters, and any other
character without a shape of its own is named by its number in braces.
-/

namespace EventLog.Text

/-- A character by its number: `\u` and the hexadecimal digits in braces. -/
def numbered (c : Char) : List Char :=
  '\\' :: 'u' :: '\x7b' :: Nat.toDigits 16 c.toNat ++ ['\x7d']

def quotedChar (c : Char) : List Char :=
  if c = '"' ∨ c = '\\' then ['\\', c]
  else if c = '\n' then ['\\', 'n']
  else if c = '\r' then ['\\', 'r']
  else if c = '\t' then ['\\', 't']
  else if c = Char.ofNat 0 then ['\\', '0']
  else if ' ' ≤ c ∧ c ≤ '~' then [c]
  else if isShapeless c then numbered c
  else [c]

def quoted (text : String) : String :=
  String.ofList ('"' :: text.toList.flatMap quotedChar ++ ['"'])

end EventLog.Text
