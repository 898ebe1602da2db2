import EventLog.Client.Command
import EventLog.Hex
import EventLog.Text.Search

/-!
# EventLog.Client.Arguments

Reading the arguments of the client: options that hold for all commands, the
name of a command, and its values and options, among which the general options
may stand too.

* An option has its value behind an equals sign or in the next argument, which
  then does not start with a dash, unless it is nothing but a dash.
* Behind `--` everything is a value.
* No option is given twice in front of the command, or twice behind it; behind
  it wins.
* The version is told as soon as it is asked for, but not behind the command.
-/

namespace EventLog

/-- Options with their values, options without, and plain values, as they were given. -/
structure Arguments where
  options : List (String × String)
  flags : List String
  values : List String
  deriving DecidableEq, Repr

/-- A command's name, the number of its values, and its options with values and without. -/
structure CommandForm where
  name : String
  valueCount : Nat
  options : List String
  flags : List String

/-- How far the arguments were read: what was given, the option whose value
comes next, and whether only values may follow. -/
structure Scan where
  given : Arguments
  awaiting : Option String
  valuesOnly : Bool

/-- What reading the arguments comes to. -/
inductive Scanned where
  | all (given : Arguments)
  | command (given : Arguments) (name : String) (rest : List String)
  | version (given : Arguments)
  | help
  | wrong

namespace Scan

def start : Scan := ⟨⟨[], [], []⟩, none, false⟩

/-- Whether an argument looks like an option. -/
def isDashed (argument : String) : Bool :=
  match argument.toList with
  | '-' :: _ :: _ => true
  | _ => false

/-- Takes an option with its value, unless it was given before. -/
def option? (s : Scan) (name value : String) : Option Scan :=
  if (s.given.options.lookup name).isSome then none
  else some { s with
    given := { s.given with options := s.given.options ++ [(name, value)] }, awaiting := none }

/-- Takes an option without a value, unless it was given before. -/
def flag? (s : Scan) (name : String) : Option Scan :=
  if name ∈ s.given.flags then none
  else some { s with given := { s.given with flags := s.given.flags ++ [name] } }

def value (s : Scan) (text : String) : Scan :=
  { s with given := { s.given with values := s.given.values ++ [text] } }

def step? (form : CommandForm) (s : Scan) (argument : String) : Option Scan :=
  if s.valuesOnly then some (s.value argument)
  else match s.awaiting with
    | some name => if isDashed argument then none else s.option? name argument
    | none =>
      match Text.behind? ['-', '-'] argument.toList with
      | some [] => some { s with valuesOnly := true }
      | some long =>
        match Text.cutOnce? '=' long with
        | some (name, value) =>
          if String.ofList name ∈ form.options then
            s.option? (String.ofList name) (String.ofList value)
          else none
        | none =>
          let name := String.ofList long
          if name ∈ form.flags then s.flag? name
          else if name ∈ form.options ∧ (s.given.options.lookup name).isNone then
            some { s with awaiting := some name }
          else none
      | none => if isDashed argument then none else some (s.value argument)

def asksHelp (argument : String) : Bool :=
  argument == "--help" || (Text.behind? ['-', 'h'] argument.toList).isSome

def asksVersion (argument : String) : Bool :=
  argument == "--version" || (Text.behind? ['-', 'V'] argument.toList).isSome

def leading (form : CommandForm) (s : Scan) : List String → Scanned
  | [] => .wrong
  | argument :: rest =>
    if s.awaiting.isNone ∧ ¬ s.valuesOnly ∧ asksHelp argument then .help
    else if s.awaiting.isNone ∧ ¬ s.valuesOnly ∧ asksVersion argument then .version s.given
    else if s.awaiting.isNone ∧ ¬ s.valuesOnly ∧ ¬ isDashed argument then
      .command s.given argument rest
    else
      match s.step? form argument with
      | some s => leading form s rest
      | none => .wrong

def trailing (form : CommandForm) (s : Scan) : List String → Scanned
  | [] => if s.awaiting.isSome then .wrong else .all s.given
  | argument :: rest =>
    if s.awaiting.isNone ∧ ¬ s.valuesOnly ∧ asksHelp argument then .help
    else
      match s.step? form argument with
      | some s =>
        if form.valueCount < s.given.values.length then .wrong else trailing form s rest
      | none => .wrong

end Scan

/-! ## Values -/

/-- A number, in hexadecimal behind its mark, below a limit. -/
def argumentNumber? (limit : Nat) (text : String) : Option Nat :=
  let value? :=
    match (Text.behind? ['0', 'x'] text.toList).or (Text.behind? ['0', 'X'] text.toList) with
    | some digits => Text.numeral? 16 Text.wordLimit digits
    | none => Text.numeral? 10 Text.wordLimit text.toList
  value?.filter (· < limit)

/-- A path; it is not empty. -/
def argumentPath? (text : String) : Option Path := if text = "" then none else some ⟨text⟩

def OutputFormat.ofText? : String → Option OutputFormat
  | "text" => some .text
  | "json" => some .json
  | _ => none

namespace Arguments

/-- The value of an option, read; the default if it was not given. -/
def read? {α : Type} (a : Arguments) (name : String) (read : String → Option α) (default : α) :
    Option α :=
  match a.options.lookup name with
  | some text => read text
  | none => some default

/-- The value of an option that has to be given, read. -/
def require? {α : Type} (a : Arguments) (name : String) (read : String → Option α) : Option α :=
  a.options.lookup name >>= read

/-- Bytes in hexadecimal; none if they were not given. -/
def data? (a : Arguments) : Option (List UInt8) :=
  a.read? "data" (fun text => (Hex.ofText? text).toOption) []

def byte? (a : Arguments) (name : String) (default : UInt8) : Option UInt8 :=
  a.read? name (fun text => (argumentNumber? 256 text).map UInt8.ofNat) default

def requireByte? (a : Arguments) (name : String) : Option UInt8 :=
  a.require? name fun text => (argumentNumber? 256 text).map UInt8.ofNat

/-- The general options: the configuration's file, the socket and the format. -/
def general? (a : Arguments) : Option (Option Path × Option Path × Option OutputFormat) := do
  return (← a.read? "config" (some <$> argumentPath? ·) none,
    ← a.read? "socket" (some <$> argumentPath? ·) none,
    ← a.read? "output" (some <$> OutputFormat.ofText? ·) none)

end Arguments

/-! ## Commands -/

namespace Command

def generalOptions : List String := ["config", "socket", "output"]

/-- What may stand in front of a command. -/
def generalForm : CommandForm := ⟨"", 0, generalOptions, []⟩

def forms : List CommandForm :=
  [⟨"add", 1, ["sensor-path", "data", "generator-id"], ["deassert"]⟩,
    ⟨"add-oem", 1, ["data", "record-type"], []⟩,
    ⟨"clear", 0, [], []⟩,
    ⟨"delete", 1, [], []⟩,
    ⟨"info", 0, [], []⟩,
    ⟨"list", 0, [], []⟩,
    ⟨"publish", 1, [], []⟩,
    ⟨"set-properties", 3, [], []⟩,
    ⟨"set-ipmi-response", 0, ["netfn", "cmd", "lun", "cc", "data"], []⟩,
    ⟨"status", 0, [], []⟩,
    ⟨"shutdown", 0, [], []⟩]

/-- The generator of records that name none. -/
def defaultGenerator : UInt16 := 0x20

/-- The type of OEM records that name none. -/
def defaultOemType : UInt8 := 0xE0

def ofArguments? (name : String) (a : Arguments) : Option Command := do
  match name, a.values with
  | "add", [message] =>
    let generator ← a.read? "generator-id"
      (fun text => (argumentNumber? 65536 text).map UInt16.ofNat) defaultGenerator
    return add message (← a.require? "sensor-path" some) (← a.data?)
      (!a.flags.contains "deassert") generator
  | "add-oem", [message] =>
    return addOem message (← a.data?) (← a.byte? "record-type" defaultOemType)
  | "clear", [] => return clear
  | "delete", [id] => return delete ⟨UInt16.ofNat (← argumentNumber? 65536 id)⟩
  | "info", [] => return info
  | "list", [] => return list
  | "publish", [signal] => return publish signal
  | "set-properties", [path, interface, properties] =>
    return setProperties path interface properties
  | "set-ipmi-response", [] =>
    return setReply ⟨← a.requireByte? "netfn", ← a.byte? "lun" 0, ← a.requireByte? "cmd",
      ← a.byte? "cc" 0, ← a.data?⟩
  | "status", [] => return status
  | "shutdown", [] => return shutdown
  | _, _ => none

end Command

/-- Joins what was given in front of a command and behind it. -/
def Invocation.ofArguments? (front : Arguments) (name : String) (behind : Arguments) :
    Option Invocation := do
  let (config, socket, format) ← front.general?
  let (config', socket', format') ← behind.general?
  return {
    config := config'.or config
    socket := socket'.or socket
    format := (format'.or format).getD .text
    command := ← Command.ofArguments? name behind }

/-- The name that stands for a command and asks for help. -/
def Command.helpName : String := "help"

/-- What is asked for behind the name that asks for help: help with a command, or in general. -/
def Asked.helpWith : List String → Asked
  | [] => .help
  | [name] => if name = Command.helpName ∨ name ∈ Command.forms.map (·.name) then .help else .wrong
  | _ => .wrong

def Asked.ofArguments (arguments : List String) : Asked :=
  match Scan.start.leading Command.generalForm arguments with
  | .help => .help
  | .version front => if front.general?.isSome then .version else .wrong
  | .command front name rest =>
    if name = Command.helpName then Asked.helpWith rest
    else
      match Command.forms.find? (·.name == name) with
      | none => .wrong
      | some form =>
        if front.general?.isNone then .wrong
        else
          let form := { form with options := form.options ++ Command.generalOptions }
          match Scan.start.trailing form rest with
          | .help => .help
          | .all behind =>
            match Invocation.ofArguments? front name behind with
            | some invocation => .run invocation
            | none => .wrong
          | _ => .wrong
  | _ => .wrong

end EventLog
