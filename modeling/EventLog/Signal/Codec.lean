import EventLog.Signal.Basic
import EventLog.Value.Codec

/-!
# EventLog.Signal.Codec

Signals as JSON.  The arguments may be left out when there are none.
-/

namespace EventLog.Signal

def toJson (s : Signal) : Json :=
  .ofFields [("sender", .text s.sender), ("path", .text s.path), ("interface", .text s.interface),
    ("member", .text s.member), ("args", .array (s.args.map Value.toJson))]

/-- Reads a signal within the brackets that may be opened; one that is held is
part of a message that was read as a whole before. -/
def ofJson? (held : Bool) : Nat → Json → Option Signal
  | 0, _ => none
  | depth + 1, json => do
    match ← json.fields? ["sender", "path", "interface", "member", "args"] 4 with
    | [some sender, some path, some interface, some member, args] =>
      let args ← match args with
        | none => some []
        | some args => if depth = 0 then none else args.items? (Value.ofJson? held (depth - 1))
      return ⟨← sender.text?, ← path.text?, ← interface.text?, ← member.text?, args⟩
    | _ => none

def ofText? (text : String) : Option Signal :=
  Json.ofText? text.length text.toList >>= ofJson? false Json.depthLimit

end EventLog.Signal
