import EventLog.Toml.Basic

/-!
# EventLog.Toml.Quoted

Strings of a document, in four forms: between double or single quotes, and
between one of a kind or three.  Double quotes allow escapes; three quotes
allow line breaks, and one directly behind the first quotes means nothing.

* Up to two quotes may stand in front of the three that end a string.
* A backslash at the end of a line takes away the blanks and line breaks up to
  the next other character.
* Line breaks are line feeds; no other control character than a tab may stand
  in a string.
-/

namespace EventLog.Toml

/-- A space or a tab. -/
def isBlank (c : Char) : Bool := c = ' ' || c = '\t'

def skipBlanks (text : List Char) : List Char := text.dropWhile isBlank

/-- A character that may stand in comments and strings. -/
def isPlain (c : Char) : Bool := c = '\t' || (0x20 ≤ c.toNat && c.toNat != 0x7F)

def escapeLetter? : Char → Option Char
  | '"' => some '"'
  | '\\' => some '\\'
  | 'b' => some (Char.ofNat 8)
  | 'f' => some (Char.ofNat 12)
  | 'n' => some '\n'
  | 'r' => some '\r'
  | 't' => some '\t'
  | _ => none

def escapeNumber? (digits : List Char) : Option Char :=
  (Text.digits? 16 0 digits).bind fun n =>
    if n < 0xD800 ∨ (0xDFFF < n ∧ n < 0x110000) then some (Char.ofNat n) else none

/-- Puts a character in front of what was read. -/
def behind (c : Char) (read : Option (List Char × List Char)) : Option (List Char × List Char) :=
  read.map fun (text, rest) => (c :: text, rest)

/-- A string up to its double quote. -/
def takeBasic? : List Char → Option (List Char × List Char)
  | [] => none
  | '"' :: rest => some ([], rest)
  | '\\' :: 'u' :: a :: b :: c :: d :: rest => do
    behind (← escapeNumber? [a, b, c, d]) (takeBasic? rest)
  | '\\' :: 'U' :: a :: b :: c :: d :: e :: f :: g :: h :: rest => do
    behind (← escapeNumber? [a, b, c, d, e, f, g, h]) (takeBasic? rest)
  | '\\' :: c :: rest => do behind (← escapeLetter? c) (takeBasic? rest)
  | c :: rest => if isPlain c ∧ c ≠ '\\' then behind c (takeBasic? rest) else none

/-- A string up to its three double quotes; while folding, blanks and line
breaks are passed over. -/
def takeLongBasic? (folding : Bool) : List Char → Option (List Char × List Char)
  | [] => none
  | '"' :: '"' :: '"' :: '"' :: '"' :: rest => some (['"', '"'], rest)
  | '"' :: '"' :: '"' :: '"' :: rest => some (['"'], rest)
  | '"' :: '"' :: '"' :: rest => some ([], rest)
  | '\\' :: 'u' :: a :: b :: c :: d :: rest => do
    behind (← escapeNumber? [a, b, c, d]) (takeLongBasic? false rest)
  | '\\' :: 'U' :: a :: b :: c :: d :: e :: f :: g :: h :: rest => do
    behind (← escapeNumber? [a, b, c, d, e, f, g, h]) (takeLongBasic? false rest)
  | '\\' :: c :: rest =>
    if (skipBlanks (c :: rest)).head? = some '\n' then takeLongBasic? true (c :: rest)
    else do behind (← escapeLetter? c) (takeLongBasic? false rest)
  | c :: rest =>
    if folding ∧ (isBlank c ∨ c = '\n') then takeLongBasic? true rest
    else if (isPlain c ∧ c ≠ '\\') ∨ c = '\n' then behind c (takeLongBasic? false rest)
    else none

/-- A string up to its single quote. -/
def takeLiteral? : List Char → Option (List Char × List Char)
  | [] => none
  | c :: rest =>
    if c = '\'' then some ([], rest)
    else if isPlain c then behind c (takeLiteral? rest)
    else none

/-- A string up to its three single quotes. -/
def takeLongLiteral? : List Char → Option (List Char × List Char)
  | [] => none
  | '\'' :: '\'' :: '\'' :: '\'' :: '\'' :: rest => some (['\'', '\''], rest)
  | '\'' :: '\'' :: '\'' :: '\'' :: rest => some (['\''], rest)
  | '\'' :: '\'' :: '\'' :: rest => some ([], rest)
  | c :: rest => if isPlain c ∨ c = '\n' then behind c (takeLongLiteral? rest) else none

def skipBreak : List Char → List Char
  | '\n' :: rest => rest
  | text => text

/-- A string in front of a text, from its first quote. -/
def takeQuoted? : List Char → Option (List Char × List Char)
  | '"' :: '"' :: '"' :: rest => takeLongBasic? false (skipBreak rest)
  | '"' :: rest => takeBasic? rest
  | '\'' :: '\'' :: '\'' :: rest => takeLongLiteral? (skipBreak rest)
  | '\'' :: rest => takeLiteral? rest
  | _ => none

end EventLog.Toml
