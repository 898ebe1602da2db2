import EventLog.Text.Fields
import EventLog.Value.Basic

/-!
# EventLog.Signal.Basic

Signals of the message bus.  A signal is routed by its name, its member and a
namespace joined by a colon.  The namespace is the signal's interface, but for
a change of properties it is the interface whose properties changed, which the
first argument names.
-/

namespace EventLog

/-- A signal: who sent it, the object it is about, and its arguments. -/
structure Signal where
  sender : String
  path : String
  interface : String
  member : String
  args : List Value

def propertiesChangedMember : String := "PropertiesChanged"

def propertiesInterface : String := "org.freedesktop.DBus.Properties"

/-- The last segment of an object path. -/
def objectName (path : String) : String := String.ofList (Text.lastField '/' path.toList)

/-- What follows the last point of the full name of an enumeration's value. -/
def enumLeaf (name : String) : String := String.ofList (Text.lastField '.' name.toList)

def routingName (member nameSpace : String) : String := member ++ ":" ++ nameSpace

namespace Signal

def propertiesChanged (sender path interface : String) (changed : Properties) : Signal :=
  ⟨sender, path, propertiesInterface, propertiesChangedMember, [.str interface, .dict changed]⟩

/-- The namespace that a signal is routed by. -/
def nameSpace (s : Signal) : String :=
  if s.member = propertiesChangedMember then
    match s.args with
    | .str interface :: _ => interface
    | _ => s.interface
  else s.interface

def name (s : Signal) : String := routingName s.member s.nameSpace

def arg (s : Signal) (index : Nat) : Except ValueError Value :=
  match s.args[index]? with
  | some value => .ok value
  | none => .error (.missingArgument index)

end Signal

end EventLog
