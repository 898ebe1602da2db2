import EventLog.Allocator
import EventLog.Store.Files

/-!
# EventLog.Store.Basic

A log of records on disk.  Records are lines, added at the end of the active
file; each gets a number from the allocator, which starts from the numbers
that are found when the log is opened.

* Before a record is added, an active file that is full is moved on: the
  oldest file goes, every other one gets the next number.
* Deleting writes the one file that holds the record anew, and keeps its time.
* Clearing stamps the erase marker, removes all files and numbers from 1 again.
-/

namespace EventLog

/-- Why a record was not added.  A record that could not be written keeps its number. -/
inductive AppendError where
  | invalid (error : RecordError)
  | write (id : RecordId) (error : StoreError)
  deriving DecidableEq, Repr

def AppendError.message : AppendError → String
  | invalid error => "record rejected: " ++ error.message
  | write id error =>
    "failed to persist record " ++ Text.decimal id.toNat ++ ": " ++ error.message

/-- How many records a log has, and when it was last added to and cleared. -/
structure StoreInfo where
  entries : Nat
  lastAdd : Option Timestamp
  lastErase : Option Timestamp
  deriving DecidableEq, Repr

/-- A log that is open. -/
structure Store where
  config : StoreConfig
  allocator : Allocator
  deriving Repr

namespace StoreConfig

/-- Removes a file, if it is there. -/
def removeIfPresent (path : Path) : StoreM Unit :=
  StoreM.at path do
    try Disk.removeFile path
    catch
      | .noEntry => pure ()
      | cause => throw cause

/-- Gives each of the files from 1 to `n` the next number, the oldest first. -/
def shift (config : StoreConfig) : Nat → StoreM Unit
  | 0 => return
  | n + 1 => do
    let old := config.rotatedFile (n + 1)
    if (← get).has old then StoreM.at old (Disk.rename old (config.rotatedFile (n + 2)))
    shift config n

/-- Moves the active file on and drops the oldest one, so that there is room
for a new file. -/
def rotate (config : StoreConfig) : StoreM Unit := do
  let active := config.activeFile
  match config.maxFiles - 1 with
  | 0 => removeIfPresent active
  | keep + 1 =>
    removeIfPresent (config.rotatedFile (keep + 1))
    config.shift keep
    StoreM.at active (Disk.rename active (config.rotatedFile 1))

/-- Moves the active file on if it is full. -/
def rotateIfFull (config : StoreConfig) : StoreM Unit := do
  if config.maxFileBytes = 0 then return
  match (← get).stat config.activeFile with
  | .error .noEntry => return
  | .error cause => throw ⟨config.activeFile, cause⟩
  | .ok node => if config.maxFileBytes ≤ node.size then config.rotate

/-- Adds a line to the active file. -/
def writeLine (config : StoreConfig) (line : List Char) : StoreM Unit := do
  config.rotateIfFull
  StoreM.at config.activeFile (Disk.append config.activeFile (bytesOf (line ++ ['\n'])))

/-- The file that a new text of a file is written to before it takes its place. -/
def draftOf (config : StoreConfig) (file : Path) : Path :=
  config.directory.join ("." ++ file.fileName?.getD "" ++ ".tmp")

/-- Puts new lines in place of those of a file; the time of its last change stays. -/
def replaceLines (config : StoreConfig) (file : Path) (lines : List (List Char)) : StoreM Unit := do
  let time ← StoreM.at file (Disk.look (·.modified file))
  let draft := config.draftOf file
  StoreM.at draft (Disk.create draft (bytesOf (textOfLines lines)))
  StoreM.at file (Disk.rename draft file)
  StoreM.at file (Disk.setModified file time)

/-- Removes the lines of a record from the first of the files that has any. -/
def deleteFrom (config : StoreConfig) (id : RecordId) : List Path → StoreM Bool
  | [] => return false
  | file :: rest => do
    let lines ← StoreM.at file (readLines file)
    if lines.any (hasId id) then
      config.replaceLines file (lines.filter fun line => !hasId id line)
      return true
    else deleteFrom config id rest

/-- Gives the erase marker a time; it is made if it is missing. -/
def touchMarker (config : StoreConfig) (time : Timestamp) : StoreM Unit := do
  let marker := config.eraseMarker
  match marker.parent? with
  | some parent => StoreM.at parent (Disk.makeDirectories parent)
  | none => pure ()
  StoreM.at marker (Disk.write marker id)
  StoreM.at marker (Disk.setModified marker time.smoothed)

def linesIn (files : List Path) : StoreM (List (List Char)) := do
  return (← files.mapM fun file => StoreM.at file (readLines file)).flatten

/-- The time of the last change of a file, if it is there. -/
def modifiedTime (path : Path) : StoreM (Option Timestamp) := do
  match (← get).modified path with
  | .ok time => return some time
  | .error .noEntry => return none
  | .error cause => throw ⟨path, cause⟩

end StoreConfig

/-- Entries that lines hold; other lines are passed over. -/
def entriesOf (lines : List (List Char)) : List Entry :=
  lines.filterMap fun line => (Entry.ofLine? line).toOption

namespace Store

/-- Opens a log.  Files that cannot be read count for nothing. -/
def «open» (config : StoreConfig) : StoreM Store := do
  StoreM.at config.directory (Disk.makeDirectories config.directory)
  let files ← config.files
  let disk ← get
  let readable := files.flatMap fun file =>
    match (readLines file).run disk with
    | (.ok lines, _) => lines
    | (.error _, _) => []
  return ⟨config, Allocator.resume (readable.filterMap Line.recordId?)⟩

def checkRecord (record : Record) : Except RecordError Unit :=
  match record.sensorPath? with
  | some path => checkSensorPath path
  | none => .ok ()

def append (store : Store) (time : Timestamp) (record : Record) (disk : Disk) :
    Except AppendError RecordId × Store × Disk :=
  match checkRecord record with
  | .error e => (.error (.invalid e), store, disk)
  | .ok () =>
    let (id, allocator) := store.allocator.allocate
    let store := { store with allocator }
    match (store.config.writeLine (Line.format time id record)).run disk with
    | (.ok (), disk) => (.ok id, store, disk)
    | (.error e, disk) => (.error (.write id e), store, disk)

/-- Removes the record with a number, and says whether there was one. -/
def delete (store : Store) (id : RecordId) (disk : Disk) :
    Except StoreError Bool × Store × Disk :=
  let step := do
    let files ← store.config.files
    store.config.deleteFrom id files
  match step.run disk with
  | (.ok true, disk) => (.ok true, { store with allocator := (store.allocator.release id).2 }, disk)
  | (result, disk) => (result, store, disk)

def clear (store : Store) (time : Timestamp) (disk : Disk) :
    Except StoreError Unit × Store × Disk :=
  let step := do
    store.config.touchMarker time
    let files ← store.config.files
    files.forM StoreConfig.removeIfPresent
  match step.run disk with
  | (.ok (), disk) => (.ok (), { store with allocator := Allocator.fresh }, disk)
  | (.error e, disk) => (.error e, store, disk)

/-- All records, the oldest first.  Lines that are no records are passed over. -/
def entries (store : Store) : StoreM (List Entry) := do
  let files ← store.config.files
  return entriesOf (← StoreConfig.linesIn files.reverse)

/-- How many lines have a number, and the times of the last addition and clearing. -/
def info (store : Store) : StoreM StoreInfo := do
  let files ← store.config.files
  let lines ← StoreConfig.linesIn files
  let lastAdd ← StoreConfig.modifiedTime store.config.activeFile
  let lastErase ← StoreConfig.modifiedTime store.config.eraseMarker
  return ⟨(lines.filter fun line => (Line.recordId? line).isSome).length, lastAdd, lastErase⟩

end Store

end EventLog
