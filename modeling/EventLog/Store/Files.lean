import EventLog.Disk.Basic
import EventLog.Line
import EventLog.Text.Search

/-!
# EventLog.Store.Files

The files of a log.  The active file has the log's own name; the files it was
moved to have a number behind a point, and a higher number means an older
file.  A name with a number that is not written plainly, such as `.01`, is a
file of the log too, but rotation never makes or moves one.
-/

namespace EventLog

/-- Where and how a log is kept.  A file is given up once it has `maxFileBytes`
bytes, unless that is 0; `maxFiles` counts the active file. -/
structure StoreConfig where
  directory : Path
  logName : String
  eraseMarker : Path
  maxFileBytes : Nat
  maxFiles : Nat
  deriving DecidableEq, Repr

/-- Why an operation on a log fails: a path and a cause. -/
structure StoreError where
  path : Path
  cause : SystemError
  deriving DecidableEq, Repr

def StoreError.message (e : StoreError) : String :=
  "IO error on " ++ e.path.text ++ ": " ++ e.cause.message

/-- A step on the files of a log; what a failed step did stays done. -/
abbrev StoreM := ExceptT StoreError (StateM Disk)

/-- A step on the disk, blamed on a path if it fails. -/
def StoreM.at {α : Type} (path : Path) (step : DiskM α) : StoreM α :=
  ExceptT.mk do
    match ← step.run with
    | .ok a => return .ok a
    | .error cause => return .error ⟨path, cause⟩

namespace StoreConfig

/-- The file that records are added to. -/
def activeFile (config : StoreConfig) : Path := config.directory.join config.logName

/-- The name of a file that the active one was moved to. -/
def rotatedName (config : StoreConfig) (n : Nat) : String :=
  config.logName ++ "." ++ Text.decimal n

def rotatedFile (config : StoreConfig) (n : Nat) : Path :=
  config.directory.join (config.rotatedName n)

/-- The number of a file of the log by its name: 0 for the active file. -/
def fileIndex? (config : StoreConfig) (name : String) : Option Nat :=
  match Text.behind? config.logName.toList name.toList with
  | none => none
  | some [] => some 0
  | some ('.' :: number) => (Text.numeral? 10 Text.wordLimit number).filter (0 < ·)
  | some _ => none

/-- The order of files: by their numbers, then by their names. -/
def precedes (x y : Nat × String) : Bool :=
  x.1 < y.1 || (x.1 == y.1 && x.2 ≤ y.2)

/-- The files of the log among some names, the newest first. -/
def filesAmong (config : StoreConfig) (names : List String) : List String :=
  let numbered := names.filterMap fun name => (config.fileIndex? name).map fun n => (n, name)
  (numbered.mergeSort precedes).map (·.2)

/-- The files of the log, the newest first; none if there is no directory. -/
def files (config : StoreConfig) : StoreM (List Path) := do
  match (← get).list config.directory with
  | .ok names => return (config.filesAmong names).map config.directory.join
  | .error .noEntry => return []
  | .error cause => throw ⟨config.directory, cause⟩

end StoreConfig

/-! ## Lines of a file -/

/-- The lines of a text: each ends with a line feed, or a carriage return and
a line feed; the last one may be without. -/
def linesOf (text : List Char) : List (List Char) :=
  let pieces := Text.fields '\n' text
  let last := pieces.getLastD []
  pieces.dropLast.map stripReturn ++ (if last.isEmpty then [] else [last])
where
  /-- A line without a carriage return at its end. -/
  stripReturn (line : List Char) : List Char :=
    if line.getLast? = some '\r' then line.dropLast else line

/-- The lines of a text that are not blank. -/
def storedLines (text : List Char) : List (List Char) :=
  (linesOf text).filter fun line => !Text.isBlankText line

/-- The text of lines, each with a line feed behind it. -/
def textOfLines (lines : List (List Char)) : List Char :=
  lines.flatMap (· ++ ['\n'])

/-- Characters as the bytes of a file. -/
def bytesOf (text : List Char) : ByteArray := (String.ofList text).toByteArray

/-- The lines of a file that are not blank. -/
def readLines (path : Path) : DiskM (List (List Char)) := do
  return storedLines (← Disk.look (·.readText path)).toList

/-- The number of a line's record is the given one. -/
def hasId (id : RecordId) (line : List Char) : Bool := Line.recordId? line == some id

end EventLog
