import EventLog.Config.Basic
import EventLog.Toml.Reader

/-!
# EventLog.Config.Reader

The configuration that a file holds.  No file is a file that says nothing.
A key that means nothing is refused, except in the tables of the sink and of
the monitors.

* A list of values in their order may stand for those tables.
* A choice is a name, or a table whose one key is the name, with nothing in it.
-/

namespace EventLog

/-- Why there is no configuration. -/
inductive ConfigError where
  | unreadable (path : Path) (cause : SystemError)
  | invalid (path : Path)
  deriving DecidableEq, Repr

def ConfigError.message : ConfigError → String
  | unreadable path cause => "failed to read " ++ path.text ++ ": " ++ cause.message
  | invalid path => "invalid config " ++ path.text

namespace Toml

def text? : Toml → Option String
  | .string s => some s
  | _ => none

def path? (value : Toml) : Option Path := value.text?.map Path.mk

def bool? : Toml → Option Bool
  | .bool b => some b
  | _ => none

/-- A number that is not negative. -/
def nat? : Toml → Option Nat
  | .integer (.ofNat n) => some n
  | _ => none

/-- Whether there is nothing in a value. -/
def isEmpty : Toml → Bool
  | .array _ items => items.isEmpty
  | .table _ entries => entries.isEmpty
  | _ => false

def choice? : Toml → Option String
  | .string s => some s
  | .table _ [(name, value)] => if value.isEmpty then some name else none
  | _ => none

/-- Where the state of a watchdog is taken from. -/
def enabledSource? (value : Toml) : Option EnabledSource := do
  match ← value.choice? with
  | "signal" => some .signal
  | "property" => some .property
  | _ => none

end Toml

namespace MonitorConfig

/-- The keys of the table, in their order. -/
def keys : List String :=
  ["threshold", "threshold_alarm", "watchdog", "host_error", "pulse", "watchdog_enabled_source"]

def withEntry? (config : MonitorConfig) : String × Toml → Option MonitorConfig
  | ("threshold", value) => value.bool?.map fun b => { config with threshold := b }
  | ("threshold_alarm", value) => value.bool?.map fun b => { config with thresholdAlarm := b }
  | ("watchdog", value) => value.bool?.map fun b => { config with watchdog := b }
  | ("host_error", value) => value.bool?.map fun b => { config with hostError := b }
  | ("pulse", value) => value.bool?.map fun b => { config with power := b }
  | ("watchdog_enabled_source", value) =>
    value.enabledSource?.map fun source => { config with enabledSource := source }
  | _ => some config

/-- Reads which monitors are enabled; a point in time says nothing about it. -/
def ofToml? : Toml → Option MonitorConfig
  | .table _ entries => entries.foldlM withEntry? .default
  | .array _ items => (keys.zip items).foldlM withEntry? .default
  | .moment _ => some .default
  | _ => none

end MonitorConfig

namespace SinkChoice

/-- The choice of a name, from the value that goes with it if there is one. -/
def ofValue? (name : String) (value : Option Toml) : Option SinkChoice :=
  match name, value with
  | "journal", none => some (.journal none)
  | "journal", some unit => unit.text?.map fun unit => .journal (some unit)
  | "logging_service", some url => url.text?.map .service
  | _, _ => none

def key (name : String) : String := if name = "journal" then "reload_unit" else "url"

/-- Reads where records go. -/
def ofToml? : Toml → Option SinkChoice
  | .table _ entries => do
    let name ← (← entries.lookup "type").text?
    ofValue? name (entries.lookup (key name))
  | .array _ [name] => do ofValue? (← name.text?) none
  | .array _ [name, value] => do ofValue? (← name.text?) (some value)
  | _ => none

end SinkChoice

namespace Config

def withEntry? (config : Config) : String × Toml → Option Config
  | ("log_dir", value) => value.path?.map fun p => { config with logDirectory := p }
  | ("log_prefix", value) => value.text?.map fun s => { config with logName := s }
  | ("erase_marker", value) => value.path?.map fun p => { config with eraseMarker := p }
  | ("max_file_bytes", value) => value.nat?.map fun n => { config with maxFileBytes := n }
  | ("max_files", value) => value.nat?.map fun n => { config with maxFiles := n }
  | ("socket_path", value) => value.path?.map fun p => { config with socket := p }
  | ("daemon_log", value) => value.path?.map fun p => { config with daemonLog := p }
  | ("sink", value) => (SinkChoice.ofToml? value).map fun s => { config with sink := s }
  | ("monitors", value) => (MonitorConfig.ofToml? value).map fun m => { config with monitors := m }
  | _ => none

def ofText? (text : String) : Option Config := do
  match ← Toml.ofText? text.toList with
  | .table _ entries => entries.foldlM withEntry? default
  | _ => none

def ofFile (path : Path) (disk : Disk) : Except ConfigError Config :=
  match disk.readText path with
  | .error .noEntry => .ok default
  | .error cause => .error (.unreadable path cause)
  | .ok text =>
    match ofText? text with
    | some config => .ok config
    | none => .error (.invalid path)

/-- The configuration of a program, from its file if it was given one. -/
def load (file : Option Path) (overrides : Overrides) (disk : Disk) : Except ConfigError Config :=
  match file with
  | none => .ok (default.override overrides)
  | some path => (ofFile path disk).map (·.override overrides)

end Config

end EventLog
