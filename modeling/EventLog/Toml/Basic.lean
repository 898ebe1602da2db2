import EventLog.Text.Numeral

/-!
# EventLog.Toml.Basic

TOML documents.  A document is a list of statements: headers, which open a
table or add one to an array of tables, and entries, which give a key of the
open table its value.  Keys are dotted; a dotted key makes the tables on its
way.

* No key gets two values, and no table is opened twice.
* A table on the way to a header may be opened later; one that a dotted key
  made may not, but gets more entries from dotted keys.
* A table in braces is finished, and so is an array in brackets.
-/

namespace EventLog

/-- How a table came about. -/
inductive TableKind where
  /-- A header opened it. -/
  | opened
  /-- A header further down passed through it. -/
  | passed
  /-- A dotted key passed through it. -/
  | dotted
  /-- It was written in braces. -/
  | braced
  deriving DecidableEq, Repr

/-- A value of a document.  Numbers with a fraction and points in time stay as
they are written.  An array is growing if headers add its tables. -/
inductive Toml where
  | string (text : String)
  | integer (value : Int)
  | fractional (text : String)
  | bool (value : Bool)
  | moment (text : String)
  | array (isGrowing : Bool) (items : List Toml)
  | table (kind : TableKind) (entries : List (String × Toml))
  deriving Repr

namespace Toml

/-- A statement of a document. -/
inductive Statement where
  /-- Opens a table. -/
  | header (path : List String)
  /-- Adds a table to an array of tables. -/
  | item (path : List String)
  /-- Gives a key its value. -/
  | entry (path : List String) (value : Toml)
  deriving Repr

/-! ## Tables -/

def alterEntry (key : String) (change : Option Toml → Option Toml) :
    List (String × Toml) → Option (List (String × Toml))
  | [] => (change none).map fun value => [(key, value)]
  | (other, value) :: rest =>
    if other = key then (change (some value)).map fun value => (other, value) :: rest
    else (alterEntry key change rest).map ((other, value) :: ·)

def alterLast (change : Toml → Option Toml) : List Toml → Option (List Toml)
  | [] => none
  | [item] => (change item).map ([·])
  | item :: rest => (alterLast change rest).map (item :: ·)

/-- Changes the table under a key, which is made if it is missing.  Dotted keys
do not pass through a table with a header of its own. -/
def alterChild (dotted : Bool) (key : String) (change : Toml → Option Toml) :
    Toml → Option Toml
  | .table kind entries =>
    let step : Option Toml → Option Toml
      | none => change (.table (if dotted then .dotted else .passed) [])
      | some (.table inner entries) =>
        if inner = .braced ∨ (dotted ∧ inner = .opened) then none
        else change (.table inner entries)
      | some (.array true items) => (alterLast change items).map (.array true)
      | some _ => none
    (alterEntry key step entries).map (.table kind)
  | _ => none

def alter (dotted : Bool) : List String → (Toml → Option Toml) → Toml → Option Toml
  | [], change => change
  | key :: rest, change => alterChild dotted key (alter dotted rest change)

/-- Gives a key of a table its value.  A dotted key ends in a table that dotted
keys made. -/
def assign (path : List String) (value : Toml) : Toml → Option Toml :=
  let add : Toml → Option Toml
    | .table kind entries =>
      if kind = .dotted ↔ path.length ≤ 1 then none
      else (alterEntry (path.getLastD "") (fun | none => some value | some _ => none) entries).map
        (.table kind)
    | _ => none
  alter true path.dropLast add

def openTable (path : List String) : Toml → Option Toml :=
  let make : Option Toml → Option Toml
    | none => some (.table .opened [])
    | some (.table .passed entries) => some (.table .opened entries)
    | some _ => none
  let add : Toml → Option Toml
    | .table kind entries => (alterEntry (path.getLastD "") make entries).map (.table kind)
    | _ => none
  alter false path.dropLast add

def addTable (path : List String) : Toml → Option Toml :=
  let make : Option Toml → Option Toml
    | none => some (.array true [.table .opened []])
    | some (.array true items) => some (.array true (items ++ [.table .opened []]))
    | some _ => none
  let add : Toml → Option Toml
    | .table kind entries => (alterEntry (path.getLastD "") make entries).map (.table kind)
    | _ => none
  alter false path.dropLast add

/-! ## Documents -/

/-- Adds a statement to a document whose open table is at the given path. -/
def state? : Toml × List String → Statement → Option (Toml × List String)
  | (root, _), .header path => (openTable path root).map (·, path)
  | (root, _), .item path => (addTable path root).map (·, path)
  | (root, header), .entry path value =>
    (alter false header (assign path value) root).map (·, header)

/-- The document of statements, if they go together. -/
def ofStatements? (statements : List Statement) : Option Toml :=
  (statements.foldlM state? (.table .opened [], [])).map (·.1)

/-- The table in braces that holds the given entries. -/
def ofEntries? (entries : List (List String × Toml)) : Option Toml :=
  entries.foldlM (fun table (path, value) => assign path value table) (.table .braced [])

end Toml

end EventLog
