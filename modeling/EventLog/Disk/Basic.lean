import EventLog.Disk.Path
import EventLog.Time.Timestamp

/-!
# EventLog.Disk.Basic

A disk as a value: what is stored at each place.  A place is the list of names
that leads to it from the root.  Files and directories carry the time of their
last change; the disk's own clock sets it.  Every file has a number of its own,
which it keeps under another name and which no later file gets.

Every operation takes a path, walks to its place and either changes the disk
or fails with the cause that an operating system would give.

* A segment in the middle of a path has to be a directory; the last one may be
  missing where something is created.
* A path that ends in a slash or a point names a directory.
-/

namespace EventLog

/-- Why an operation on the disk, a connection or a text fails. -/
inductive SystemError where
  | noEntry
  | noDevice
  | alreadyExists
  | notDirectory
  | isDirectory
  | invalidArgument
  | nameTooLong
  | notEmpty
  | addressInUse
  | networkUnreachable
  | connectionRefused
  | invalidUtf8
  | nulInPath
  | socketPathTooLong
  | earlyEnd
  deriving DecidableEq, Repr

namespace SystemError

/-- The number that the system knows a cause by, if it comes from there. -/
def code? : SystemError → Option Nat
  | noEntry => some 2
  | noDevice => some 6
  | alreadyExists => some 17
  | notDirectory => some 20
  | isDirectory => some 21
  | invalidArgument => some 22
  | nameTooLong => some 36
  | notEmpty => some 39
  | addressInUse => some 98
  | networkUnreachable => some 101
  | connectionRefused => some 111
  | invalidUtf8 | nulInPath | socketPathTooLong | earlyEnd => none

/-- A cause in words. -/
def phrase : SystemError → String
  | noEntry => "No such file or directory"
  | noDevice => "No such device or address"
  | alreadyExists => "File exists"
  | notDirectory => "Not a directory"
  | isDirectory => "Is a directory"
  | invalidArgument => "Invalid argument"
  | nameTooLong => "File name too long"
  | notEmpty => "Directory not empty"
  | addressInUse => "Address already in use"
  | networkUnreachable => "Network is unreachable"
  | connectionRefused => "Connection refused"
  | invalidUtf8 => "stream did not contain valid UTF-8"
  | nulInPath => "file name contained an unexpected NUL byte"
  | socketPathTooLong => "path must be shorter than SUN_LEN"
  | earlyEnd => "early eof"

/-- A cause in words, with its number if it has one. -/
def message (e : SystemError) : String :=
  match e.code? with
  | some n => e.phrase ++ " (os error " ++ Text.decimal n ++ ")"
  | none => e.phrase

end SystemError

/-- A place on the disk: the names that lead to it from the root. -/
abbrev Place := List String

/-- What is stored at a place. -/
inductive Node where
  | file (number : Nat) (bytes : ByteArray) (modified : Timestamp)
  | directory (modified : Timestamp)
  | socket

namespace Node

def isDirectory : Node → Bool
  | directory _ => true
  | _ => false

/-- The number of bytes that a node is reported to have. -/
def size : Node → Nat
  | file _ bytes _ => bytes.size
  | directory _ => 4096
  | socket => 0

end Node

/-- What is stored at each place, the clock that stamps changes, and the number
of the next file. -/
structure Disk where
  clock : Timestamp
  nextFile : Nat
  nodes : List (Place × Node)

/-- A step that changes the disk or fails; what a failed step did stays done. -/
abbrev DiskM := ExceptT SystemError (StateM Disk)

namespace Disk

/-- The disk with nothing but its root. -/
def blank (clock : Timestamp) : Disk := ⟨clock, 0, [([], .directory clock)]⟩

def get? (disk : Disk) (place : Place) : Option Node := disk.nodes.lookup place

def put (disk : Disk) (place : Place) (node : Node) : Disk :=
  { disk with nodes := (place, node) :: disk.nodes.filter (·.1 != place) }

def erase (disk : Disk) (place : Place) : Disk :=
  { disk with nodes := disk.nodes.filter (·.1 != place) }

/-- Stamps a directory, because one of its names came, went or changed. -/
def stamp (disk : Disk) (place : Place) : Disk :=
  match disk.get? place with
  | some (.directory _) => disk.put place (.directory disk.clock)
  | _ => disk

def namesAt (disk : Disk) (place : Place) : List String :=
  disk.nodes.filterMap fun (p, _) => if p.dropLast = place then p.getLast? else none

/-! ## Walking -/

/-- The most bytes of a name. -/
def nameLimit : Nat := 255

/-- Walks along names from a place; every place that is left has to be a directory. -/
def walk (disk : Disk) : Place → List String → Except SystemError Place
  | place, [] => .ok place
  | place, name :: rest =>
    match disk.get? place with
    | some (.directory _) =>
      if nameLimit < name.utf8ByteSize then .error .nameTooLong
      else if name = "." then disk.walk place rest
      else if name = ".." then disk.walk place.dropLast rest
      else disk.walk (place ++ [name]) rest
    | some _ => .error .notDirectory
    | none => .error .noEntry

def names (path : Path) : List String :=
  (path.segments.filter (!·.isEmpty)).map String.ofList

/-- Whether a path can only name a directory. -/
def namesDirectory (path : Path) : Bool :=
  match path.segments.getLast? with
  | some segment => segment == [] || segment == ['.'] || segment == ['.', '.']
  | none => false

/-- The place of a path; its last name need not exist. -/
def locate (disk : Disk) (path : Path) : Except SystemError Place :=
  if path.text = "" then .error .noEntry
  else if path.text.toList.contains (Char.ofNat 0) then .error .nulInPath
  else disk.walk [] (names path)

/-- The place of a path, and what is stored there. -/
def find (disk : Disk) (path : Path) : Except SystemError (Place × Node) := do
  let place ← disk.locate path
  match disk.get? place with
  | none => throw .noEntry
  | some node =>
    if namesDirectory path && !node.isDirectory then throw .notDirectory
    return (place, node)

def stat (disk : Disk) (path : Path) : Except SystemError Node :=
  (disk.find path).map (·.2)

def has (disk : Disk) (path : Path) : Bool := (disk.stat path).toOption.isSome

def isDirectory (disk : Disk) (path : Path) : Bool :=
  (disk.stat path).toOption.any Node.isDirectory

/-! ## Reading -/

def read (disk : Disk) (path : Path) : Except SystemError ByteArray := do
  match ← disk.stat path with
  | .file _ bytes _ => return bytes
  | .directory _ => throw .isDirectory
  | .socket => throw .noDevice

def readText (disk : Disk) (path : Path) : Except SystemError String := do
  match String.fromUTF8? (← disk.read path) with
  | some text => return text
  | none => throw .invalidUtf8

def fileNumber (disk : Disk) (path : Path) : Except SystemError Nat := do
  match ← disk.stat path with
  | .file number _ _ => return number
  | .directory _ => throw .isDirectory
  | .socket => throw .noDevice

def list (disk : Disk) (path : Path) : Except SystemError (List String) := do
  let (place, node) ← disk.find path
  if node.isDirectory then return disk.namesAt place else throw .notDirectory

/-- The time of the last change of what a path names. -/
def modified (disk : Disk) (path : Path) : Except SystemError Timestamp := do
  match ← disk.stat path with
  | .file _ _ time => return time
  | .directory time => return time
  | .socket => return disk.clock

/-! ## Changing -/

/-- Runs a step that only looks. -/
def look {α : Type} (f : Disk → Except SystemError α) : DiskM α := do
  match f (← get) with
  | .ok a => return a
  | .error e => throw e

/-- Writes the file of a path: its new bytes come from the old ones, and from
nothing if the file is new. -/
def write (path : Path) (update : ByteArray → ByteArray) : DiskM Unit := do
  let disk ← get
  let place ← look (·.locate path)
  match disk.get? place with
  | some (.file number bytes _) =>
    if namesDirectory path then throw .notDirectory
    else set (disk.put place (.file number (update bytes) disk.clock))
  | some (.directory _) => throw .isDirectory
  | some .socket => throw (if namesDirectory path then .notDirectory else .noDevice)
  | none =>
    if namesDirectory path then throw .isDirectory
    else match disk.get? place.dropLast with
      | some (.directory _) =>
        let made := Node.file disk.nextFile (update ByteArray.empty) disk.clock
        let next := { disk with nextFile := disk.nextFile + 1 }
        set ((next.put place made).stamp place.dropLast)
      | some _ => throw .notDirectory
      | none => throw .noEntry

/-- Adds bytes at the end of a file. -/
def append (path : Path) (bytes : ByteArray) : DiskM Unit := write path (· ++ bytes)

/-- Gives a file the bytes in place of those that it had. -/
def create (path : Path) (bytes : ByteArray) : DiskM Unit := write path fun _ => bytes

/-- Sets the time of a file's last change. -/
def setModified (path : Path) (time : Timestamp) : DiskM Unit := do
  let disk ← get
  match ← look (·.find path) with
  | (place, .file number bytes _) => set (disk.put place (.file number bytes time))
  | (_, .directory _) => throw .isDirectory
  | (_, .socket) => throw .noDevice

def makeDirectory (path : Path) : DiskM Unit := do
  let disk ← get
  let place ← look (·.locate path)
  match disk.get? place with
  | some _ => throw .alreadyExists
  | none =>
    match disk.get? place.dropLast with
    | some (.directory _) => set ((disk.put place (.directory disk.clock)).stamp place.dropLast)
    | some _ => throw .notDirectory
    | none => throw .noEntry

/-- Makes a directory and those above it that are missing, in at most so many steps up. -/
def makeDirectoriesWithin : Nat → Path → DiskM Unit
  | 0, _ => throw .noEntry
  | steps + 1, path => do
    if path.text = "" then return
    let mayExist (e : SystemError) : DiskM Unit := do
      if (← get).isDirectory path then return else throw e
    try makeDirectory path
    catch
      | .noEntry =>
        match path.parent? with
        | none => throw .noEntry
        | some parent =>
          makeDirectoriesWithin steps parent
          try makeDirectory path catch e => mayExist e
      | e => mayExist e

/-- Makes a directory and those above it that are missing. -/
def makeDirectories (path : Path) : DiskM Unit :=
  makeDirectoriesWithin (path.segments.length + 1) path

def removeFile (path : Path) : DiskM Unit := do
  let disk ← get
  match ← look (·.find path) with
  | (_, .directory _) => throw .isDirectory
  | (place, _) => set ((disk.erase place).stamp place.dropLast)

/-- A place below one directory, moved to the same place below another. -/
def moved (source target place : Place) : Place :=
  if source.isPrefixOf place then target ++ place.drop source.length else place

/-- Gives a file or directory another name.  A file takes the place of a file,
a directory that of an empty directory. -/
def rename (source target : Path) : DiskM Unit := do
  let disk ← get
  let (old, node) ← look (·.find source)
  let new ← look (·.locate target)
  if old = new then return
  if node.isDirectory && old.isPrefixOf new then throw .invalidArgument
  match disk.get? new.dropLast with
  | some (.directory _) => pure ()
  | some _ => throw .notDirectory
  | none => throw .noEntry
  match disk.get? new with
  | some (.directory _) =>
    if !node.isDirectory then throw .isDirectory
    else if !(disk.namesAt new).isEmpty then throw .notEmpty
  | some _ => if node.isDirectory then throw .notDirectory
  | none => if namesDirectory target && !node.isDirectory then throw .notDirectory
  let rest := (disk.erase new).nodes.map fun (p, n) => (moved old new p, n)
  set (((({ disk with nodes := rest } : Disk).stamp old.dropLast)).stamp new.dropLast)

/-- The bytes of a socket's path are fewer. -/
def socketPathLimit : Nat := 108

/-- Makes a socket at a path where there is nothing. -/
def bind (path : Path) : DiskM Unit := do
  let disk ← get
  if socketPathLimit ≤ path.text.utf8ByteSize then throw .socketPathTooLong
  let place ← look (·.locate path)
  match disk.get? place with
  | some _ => throw .addressInUse
  | none =>
    if namesDirectory path then throw .noEntry
    match disk.get? place.dropLast with
    | some (.directory _) => set ((disk.put place .socket).stamp place.dropLast)
    | some _ => throw .notDirectory
    | none => throw .noEntry

/-- Whether a connection to a path can be tried: there is a socket. -/
def connect (disk : Disk) (path : Path) : Except SystemError Unit := do
  if socketPathLimit ≤ path.text.utf8ByteSize then throw .socketPathTooLong
  match ← disk.stat path with
  | .socket => return
  | _ => throw .connectionRefused

end Disk

end EventLog
