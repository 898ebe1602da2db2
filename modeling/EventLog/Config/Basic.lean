import EventLog.Monitor.Set
import EventLog.Store.Files

/-!
# EventLog.Config.Basic

How a daemon is set up, what is assumed where nothing is said, and the files
that follow from it.
-/

namespace EventLog

/-- Where records go. -/
inductive SinkChoice where
  /-- A local log and the journal; the unit is reloaded after the log was cleared. -/
  | journal (reloadUnit : Option String)
  /-- A logging service at an address; nothing is stored. -/
  | service (url : String)
  deriving DecidableEq, Repr

def SinkChoice.name : SinkChoice → String
  | journal _ => "journal"
  | service _ => "logging_service"

/-- How a daemon is set up. -/
structure Config where
  logDirectory : Path
  logName : String
  eraseMarker : Path
  maxFileBytes : Nat
  maxFiles : Nat
  socket : Path
  daemonLog : Path
  sink : SinkChoice
  monitors : MonitorConfig
  deriving DecidableEq, Repr

/-- What the surroundings of a program say in place of the configuration. -/
structure Overrides where
  stateDirectory : Option Path
  socket : Option Path
  deriving DecidableEq, Repr

namespace Config

/-- What is assumed where nothing is said. -/
def default : Config where
  logDirectory := ⟨"/var/log"⟩
  logName := "ipmi_sel"
  eraseMarker := ⟨"/var/lib/ipmi/sel_erase_time"⟩
  maxFileBytes := 0
  maxFiles := 4
  socket := ⟨"/run/sel/seld.sock"⟩
  daemonLog := ⟨"/var/log/seld.log"⟩
  sink := .journal none
  monitors := .default

/-- The configuration with everything moved below another directory. -/
def below (config : Config) (directory : Path) : Config :=
  { config with
    logDirectory := directory.join "log"
    eraseMarker := directory.join "sel_erase_time"
    daemonLog := directory.join "seld.log"
    socket := directory.join "seld.sock" }

/-- The configuration that the surroundings leave. -/
def override (config : Config) (overrides : Overrides) : Config :=
  let config :=
    match overrides.stateDirectory with
    | some directory => config.below directory
    | none => config
  match overrides.socket with
  | some socket => { config with socket }
  | none => config

/-- The file that a running daemon keeps locked. -/
def lockFile (config : Config) : Path := config.socket.withExtension "pid"

/-- Where and how the log is kept. -/
def store (config : Config) : StoreConfig where
  directory := config.logDirectory
  logName := config.logName
  eraseMarker := config.eraseMarker
  maxFileBytes := config.maxFileBytes
  maxFiles := config.maxFiles

end Config

end EventLog
