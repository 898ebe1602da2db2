import EventLog.Sink.Basic
import EventLog.Store.Basic

/-!
# EventLog.Pipeline

The way of a record: it is checked, stored and reported to a sink.  Without a
store records are only passed on, and have no numbers.

A record that passed the checks goes to the sink once, whether or not it could
be stored.  What the sink answers is the business of the caller only when
nothing was stored.
-/

namespace EventLog

/-- Why an operation on the pipeline fails. -/
inductive PipelineError where
  | eventData (error : RecordError)
  | unsupported (operation : String)
  | storage (error : StoreError)
  | sink (error : SinkError)
  deriving DecidableEq, Repr

def PipelineError.message : PipelineError → String
  | eventData error => error.message
  | unsupported operation =>
    operation ++ " is not supported when records are forwarded to a logging service"
  | storage error => "storage error: " ++ error.message
  | sink error => "sink error: " ++ error.message

/-- The store, if there is one, the disk, and what was asked of the sink so far. -/
structure Pipeline where
  store : Option Store
  disk : Disk
  calls : List SinkCall

/-- What is around a step of the pipeline: the time, and the answers of the sink. -/
structure Surroundings where
  now : Timestamp
  emit : SinkEntry → Except SinkError Unit

/-- A step of the pipeline; what a failed step did stays done. -/
abbrev PipelineM := ExceptT PipelineError (StateM Pipeline)

namespace Pipeline

def emit (around : Surroundings) (entry : SinkEntry) : PipelineM Unit := do
  modify fun p => { p with calls := p.calls ++ [.emit entry] }
  match around.emit entry with
  | .ok () => return
  | .error e => throw (.sink e)

/-- Stores a record, and gives its number: that of no record, if nothing is stored. -/
def persist (around : Surroundings) (record : Record) : PipelineM RecordId := do
  let p ← get
  match p.store with
  | none => return .unassigned
  | some store =>
    let (result, store, disk) := store.append around.now record p.disk
    set { p with store := some store, disk }
    match result with
    | .ok id => return id
    | .error (.invalid e) => throw (.eventData e)
    | .error (.write id _) => return id

/-- Stores a record and reports it. -/
def record (around : Surroundings) (record : Record) : PipelineM RecordId := do
  let id ← persist around record
  let stores := (← get).store.isSome
  try emit around (.record id record)
  catch e => if stores then return id else throw e
  return id

/-- Makes a system record, stores and reports it. -/
def addSystem (around : Surroundings) (message sensor : String) (data : List UInt8)
    (assert : Bool) (generator : UInt16) : PipelineM RecordId := do
  match Record.system? message sensor data assert generator with
  | .ok made => record around made
  | .error e => throw (.eventData e)

/-- Makes an OEM record, stores and reports it. -/
def addOem (around : Surroundings) (message : String) (data : List UInt8) (recordType : UInt8) :
    PipelineM RecordId := do
  match Record.oem? message data recordType with
  | .ok made => record around made
  | .error e => throw (.eventData e)

/-- Takes what a monitor has to report; a record's number comes back. -/
def submit (around : Surroundings) : Notice → PipelineM (Option RecordId)
  | .record made => some <$> record around made
  | .informational message metadata => do
    emit around (.informational message metadata)
    return none

/-- The store, for an operation that needs one. -/
def storeFor (operation : String) : PipelineM Store := do
  match (← get).store with
  | some store => return store
  | none => throw (.unsupported operation)

/-- Runs a step that reads the files of the log. -/
def reading {α : Type} (step : StoreM α) : PipelineM α := do
  match step.run (← get).disk with
  | (.ok a, _) => return a
  | (.error e, _) => throw (.storage e)

/-- Removes all records; afterwards the sink starts afresh. -/
def clear (around : Surroundings) : PipelineM Unit := do
  let store ← storeFor "clear"
  let (result, store, disk) := store.clear around.now (← get).disk
  modify fun p => { p with store := some store, disk }
  match result with
  | .ok () => modify fun p => { p with calls := p.calls ++ [.reload] }
  | .error e => throw (.storage e)

/-- Removes a record; the answer is its number, or the invalid one if there was none. -/
def delete (id : RecordId) : PipelineM RecordId := do
  let store ← storeFor "delete"
  if ¬ id.IsValid then return .invalid
  let (result, store, disk) := store.delete id (← get).disk
  modify fun p => { p with store := some store, disk }
  match result with
  | .ok true => return id
  | .ok false => return .invalid
  | .error e => throw (.storage e)

/-- The number of records, and the times of the last addition and clearing. -/
def info : PipelineM StoreInfo := do
  let store ← storeFor "info"
  reading store.info

/-- All stored records, the oldest first. -/
def entries : PipelineM (List Entry) := do
  let store ← storeFor "entries"
  reading store.entries

end Pipeline

end EventLog
