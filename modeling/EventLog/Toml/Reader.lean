import EventLog.Toml.Number
import EventLog.Toml.Quoted

/-!
# EventLog.Toml.Reader

Reading documents.  A line holds a header or an entry or neither, and may end
in a comment.  A value in brackets goes on over lines, one in braces does not.

* Lines end in a line feed, with a carriage return in front of it or without;
  a carriage return that stands elsewhere is refused.
* Fewer than eighty brackets are open at one place, and a key has fewer than
  eighty parts.
-/

namespace EventLog.Toml

/-- The text with plain line feeds at the ends of its lines. -/
def lineFeeds : List Char → List Char
  | '\r' :: '\n' :: rest => '\n' :: lineFeeds rest
  | c :: rest => c :: lineFeeds rest
  | [] => []

/-- The text without a byte order mark in front. -/
def withoutMark : List Char → List Char
  | '\uFEFF' :: rest => rest
  | text => text

/-- The text behind blanks, line breaks and comments. -/
def skipGap? (inComment : Bool) : List Char → Option (List Char)
  | [] => if inComment then none else some []
  | c :: rest =>
    if c = '\n' then skipGap? false rest
    else if inComment then if isPlain c then skipGap? true rest else none
    else if isBlank c then skipGap? false rest
    else if c = '#' then skipGap? true rest
    else some (c :: rest)

/-- The text behind the end of a line, with a comment in front of it or without. -/
def skipLineEnd? (text : List Char) : Option (List Char) :=
  let rest :=
    match skipBlanks text with
    | '#' :: comment => comment.dropWhile isPlain
    | rest => rest
  match rest with
  | [] => some []
  | '\n' :: rest => some rest
  | _ => none

/-! ## Keys -/

/-- A character of a key without quotes. -/
def isBare (c : Char) : Bool := c.isAlphanum || c = '-' || c = '_'

def takePart? : List Char → Option (String × List Char)
  | '"' :: rest => (takeBasic? rest).map fun (part, rest) => (String.ofList part, rest)
  | '\'' :: rest => (takeLiteral? rest).map fun (part, rest) => (String.ofList part, rest)
  | text =>
    match text.takeWhile isBare with
    | [] => none
    | part => some (String.ofList part, text.dropWhile isBare)

/-- A dotted key of at most so many parts, and the text behind it and its blanks. -/
def takeKey? : Nat → List Char → Option (List String × List Char)
  | 0, _ => none
  | parts + 1, text => do
    let (part, rest) ← takePart? (skipBlanks text)
    match skipBlanks rest with
    | '.' :: rest => (takeKey? parts rest).map fun (more, rest) => (part :: more, rest)
    | rest => some ([part], rest)

/-- The most parts of a key, and the most brackets that are open at one place. -/
def depthLimit : Nat := 79

/-- A key and the sign behind it. -/
def takeName? (text : List Char) : Option (List String × List Char) := do
  match ← takeKey? depthLimit text with
  | (key, '=' :: rest) => some (key, skipBlanks rest)
  | _ => none

/-! ## Values -/

mutual

/-- The value in front of a text.  The second number counts the brackets that
may still be opened; the first bounds the steps. -/
def takeValue? : Nat → Nat → List Char → Option (Toml × List Char)
  | 0, _, _ => none
  | fuel + 1, depth, text =>
    match text with
    | 't' :: 'r' :: 'u' :: 'e' :: rest => some (.bool true, rest)
    | 'f' :: 'a' :: 'l' :: 's' :: 'e' :: rest => some (.bool false, rest)
    | '"' :: _ | '\'' :: _ =>
      (takeQuoted? text).map fun (chars, rest) => (.string (String.ofList chars), rest)
    | '[' :: rest =>
      match depth with
      | 0 => none
      | depth + 1 =>
        (takeItems? fuel depth rest).map fun (items, rest) => (.array false items, rest)
    | '\x7b' :: rest =>
      match depth with
      | 0 => none
      | depth + 1 =>
        match skipBlanks rest with
        | '\x7d' :: rest => some (.table .braced [], rest)
        | rest =>
          match takeEntries? fuel depth rest with
          | some (entries, rest) => (ofEntries? entries).map (·, rest)
          | none => none
    | text => takeScalar? text

/-- The items of an array up to its closing bracket; a comma may follow the last. -/
def takeItems? : Nat → Nat → List Char → Option (List Toml × List Char)
  | 0, _, _ => none
  | fuel + 1, depth, text =>
    match skipGap? false text with
    | none => none
    | some (']' :: rest) => some ([], rest)
    | some text =>
      match takeValue? fuel depth text with
      | none => none
      | some (item, rest) =>
        match skipGap? false rest with
        | some (']' :: rest) => some ([item], rest)
        | some (',' :: rest) =>
          (takeItems? fuel depth rest).map fun (items, rest) => (item :: items, rest)
        | _ => none

/-- The entries of a table in braces, from the first one to the closing brace. -/
def takeEntries? : Nat → Nat → List Char → Option (List (List String × Toml) × List Char)
  | 0, _, _ => none
  | fuel + 1, depth, text =>
    match takeName? text with
    | none => none
    | some (key, rest) =>
      match takeValue? fuel depth rest with
      | none => none
      | some (value, rest) =>
        match skipBlanks rest with
        | '\x7d' :: rest => some ([(key, value)], rest)
        | ',' :: rest =>
          (takeEntries? fuel depth rest).map fun (entries, rest) => ((key, value) :: entries, rest)
        | _ => none

end

/-! ## Lines -/

/-- A statement in front of a text, and the text behind its line. -/
def takeStatement? : List Char → Option (Statement × List Char)
  | '[' :: '[' :: rest => do
    match ← takeKey? depthLimit rest with
    | (path, ']' :: ']' :: rest) => return (.item path, ← skipLineEnd? rest)
    | _ => none
  | '[' :: rest => do
    match ← takeKey? depthLimit rest with
    | (path, ']' :: rest) => return (.header path, ← skipLineEnd? rest)
    | _ => none
  | text => do
    let (path, rest) ← takeName? text
    let (value, rest) ← takeValue? (2 * rest.length + 2) depthLimit rest
    return (.entry path value, ← skipLineEnd? rest)

/-- The statements of a text of at most so many lines. -/
def takeStatements? : Nat → List Char → Option (List Statement)
  | 0, _ => none
  | lines + 1, text =>
    match skipBlanks text with
    | [] => some []
    | '\n' :: rest => takeStatements? lines rest
    | '#' :: rest => skipLineEnd? ('#' :: rest) >>= takeStatements? lines
    | text => do
      let (statement, rest) ← takeStatement? text
      return statement :: (← takeStatements? lines rest)

/-- The document that a text is. -/
def ofText? (text : List Char) : Option Toml :=
  let text := lineFeeds (withoutMark text)
  takeStatements? (text.length + 1) text >>= ofStatements?

end EventLog.Toml
