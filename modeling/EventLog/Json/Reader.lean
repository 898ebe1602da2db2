import EventLog.Json.Basic

/-!
# EventLog.Json.Reader

Reading JSON text.  Blanks may stand around every value and mark; nothing but
blanks may follow the value.  A bare control character in a string is refused,
and so is an object or array within more open brackets than the limit.

* A number has no leading zero, and a digit on both sides of a point.
* `\u` names a code unit of UTF-16.  A pair of surrogates is one character;
  half of a pair leaves the string without a text.
-/

namespace EventLog.Json

/-- Blanks between values and marks. -/
def isSpace (c : Char) : Bool := c = ' ' || c = '\n' || c = '\t' || c = '\r'

def skipSpace : List Char → List Char
  | [] => []
  | c :: rest => if isSpace c then skipSpace rest else c :: rest

/-- The digits in front of a text, and what follows them. -/
def takeDigits (text : List Char) : List Char × List Char :=
  (text.takeWhile (·.isDigit), text.dropWhile (·.isDigit))

/-- The digits of a whole number: at least one, and no zero before others. -/
def takeWhole? (text : List Char) : Option (List Char × List Char) :=
  match takeDigits text with
  | ([], _) => none
  | ('0' :: _ :: _, _) => none
  | (digits, rest) => some (digits, rest)

def takeFraction? : List Char → Option (List Char × List Char)
  | '.' :: rest =>
    match takeDigits rest with
    | ([], _) => none
    | (digits, rest) => some (digits, rest)
  | text => some ([], text)

/-- An exponent's digits, and its sign in front of them. -/
def takeSigned? : List Char → Option (List Char × List Char)
  | '+' :: rest =>
    match takeDigits rest with
    | ([], _) => none
    | (digits, rest) => some ('+' :: digits, rest)
  | '-' :: rest =>
    match takeDigits rest with
    | ([], _) => none
    | (digits, rest) => some ('-' :: digits, rest)
  | text =>
    match takeDigits text with
    | ([], _) => none
    | (digits, rest) => some (digits, rest)

/-- The exponent behind the letter `e`, if there is one. -/
def takeExponent? : List Char → Option (List Char × List Char)
  | 'e' :: rest => takeSigned? rest
  | 'E' :: rest => takeSigned? rest
  | text => some ([], text)

def takeUnsigned? (negative : Bool) (text : List Char) : Option (JsonNumber × List Char) := do
  let (whole, rest) ← takeWhole? text
  let (fraction, rest) ← takeFraction? rest
  let (exponent, rest) ← takeExponent? rest
  return (⟨negative, whole, fraction, exponent⟩, rest)

def takeNumber? : List Char → Option (JsonNumber × List Char)
  | '-' :: rest => takeUnsigned? true rest
  | text => takeUnsigned? false text

def escapeLetter? : Char → Option Char
  | '"' => some '"'
  | '\\' => some '\\'
  | '/' => some '/'
  | 'b' => some (Char.ofNat 8)
  | 'f' => some (Char.ofNat 12)
  | 'n' => some '\n'
  | 'r' => some '\r'
  | 't' => some '\t'
  | _ => none

/-- The code unit of four hexadecimal digits. -/
def codeUnit? (a b c d : Char) : Option Nat := Text.digits? 16 0 [a, b, c, d]

/-- Whether a code unit is the first half of a surrogate pair. -/
def isHighSurrogate (unit : Nat) : Bool := 0xD800 ≤ unit && unit < 0xDC00

/-- Whether a code unit is the second half of a surrogate pair. -/
def isLowSurrogate (unit : Nat) : Bool := 0xDC00 ≤ unit && unit < 0xE000

def joinSurrogates (high low : Nat) : Char :=
  Char.ofNat (0x10000 + (high - 0xD800) * 0x400 + (low - 0xDC00))

/-- A piece of a string: a character, or a code unit that an escape names. -/
inductive Piece where
  | char (c : Char)
  | unit (n : Nat)

/-- The pieces of a string up to its closing quote, and the text behind it. -/
def takePieces? : List Char → Option (List Piece × List Char)
  | [] => none
  | '"' :: rest => some ([], rest)
  | '\\' :: 'u' :: a :: b :: c :: d :: rest =>
    match codeUnit? a b c d with
    | none => none
    | some n => (takePieces? rest).map fun (pieces, rest) => (.unit n :: pieces, rest)
  | '\\' :: c :: rest =>
    match escapeLetter? c with
    | none => none
    | some e => (takePieces? rest).map fun (pieces, rest) => (.char e :: pieces, rest)
  | c :: rest =>
    if c.toNat < 0x20 ∨ c = '\\' then none
    else (takePieces? rest).map fun (pieces, rest) => (.char c :: pieces, rest)

/-- The characters of pieces, unless half of a surrogate pair stands alone. -/
def joinPieces? : List Piece → Option (List Char)
  | [] => some []
  | .char c :: rest => (joinPieces? rest).map (c :: ·)
  | .unit high :: .unit low :: rest =>
    if isHighSurrogate high then
      if isLowSurrogate low then (joinPieces? rest).map (joinSurrogates high low :: ·) else none
    else if isLowSurrogate high then none
    else (joinPieces? (.unit low :: rest)).map (Char.ofNat high :: ·)
  | .unit n :: rest =>
    if isHighSurrogate n || isLowSurrogate n then none
    else (joinPieces? rest).map (Char.ofNat n :: ·)

/-- The text of a string up to its closing quote, and what stands behind it.
The text is missing when half of a surrogate pair stands alone. -/
def takeString? (text : List Char) : Option (Option String × List Char) :=
  (takePieces? text).map fun (pieces, rest) => ((joinPieces? pieces).map String.ofList, rest)

mutual

/-- The value in front of a text without leading blanks.  The second number
counts the brackets that may still be opened; the first bounds the steps. -/
def takeValue? : Nat → Nat → List Char → Option (Json × List Char)
  | 0, _, _ => none
  | fuel + 1, depth, text =>
    match text with
    | 'n' :: 'u' :: 'l' :: 'l' :: rest => some (.null, rest)
    | 't' :: 'r' :: 'u' :: 'e' :: rest => some (.bool true, rest)
    | 'f' :: 'a' :: 'l' :: 's' :: 'e' :: rest => some (.bool false, rest)
    | '"' :: rest =>
      (takeString? rest).map fun (s, rest) => (.string s, rest)
    | '[' :: rest =>
      match depth with
      | 0 => none
      | depth + 1 =>
        match skipSpace rest with
        | ']' :: rest => some (.array [], rest)
        | rest => (takeItems? fuel depth rest).map fun (items, rest) => (.array items, rest)
    | '\x7b' :: rest =>
      match depth with
      | 0 => none
      | depth + 1 =>
        match skipSpace rest with
        | '\x7d' :: rest => some (.object [], rest)
        | rest => (takeMembers? fuel depth rest).map fun (members, rest) => (.object members, rest)
    | text => (takeNumber? text).map fun (n, rest) => (.number n, rest)

/-- The items of an array, from the first one to the closing bracket. -/
def takeItems? : Nat → Nat → List Char → Option (List Json × List Char)
  | 0, _, _ => none
  | fuel + 1, depth, text =>
    match takeValue? fuel depth text with
    | none => none
    | some (item, rest) =>
      match skipSpace rest with
      | ']' :: rest => some ([item], rest)
      | ',' :: rest =>
        (takeItems? fuel depth (skipSpace rest)).map fun (items, rest) => (item :: items, rest)
      | _ => none

/-- The members of an object, from the first one to the closing bracket. -/
def takeMembers? : Nat → Nat → List Char → Option (List (Option String × Json) × List Char)
  | 0, _, _ => none
  | fuel + 1, depth, text =>
    match text with
    | '"' :: rest =>
      match takeString? rest with
      | none => none
      | some (name, rest) =>
        match skipSpace rest with
        | ':' :: rest =>
          match takeValue? fuel depth (skipSpace rest) with
          | none => none
          | some (value, rest) =>
            let member := (name, value)
            match skipSpace rest with
            | '\x7d' :: rest => some ([member], rest)
            | ',' :: rest =>
              (takeMembers? fuel depth (skipSpace rest)).map fun (members, rest) =>
                (member :: members, rest)
            | _ => none
        | _ => none
    | _ => none

end

/-- The value that a text is, within the limit of open brackets. -/
def ofText? (depth : Nat) (text : List Char) : Option Json :=
  match takeValue? (2 * text.length + 2) depth (skipSpace text) with
  | some (value, rest) => if (skipSpace rest).isEmpty then some value else none
  | none => none

end EventLog.Json
