import EventLog.Value.Basic
import EventLog.Json.Shape
import EventLog.Json.Printer

/-!
# EventLog.Value.Codec

Typed values as JSON: an object of a `type` and a `value`, in either order, or
a list of the two.  Members of other names are passed over unread.  When the
value comes before its type it has to be read before it is understood, so all
of it has to be sound; it is held, as a value inside a larger message is.
-/

namespace EventLog.Value

mutual

def toJson : Value → Json
  | bool b => tagged "bool" (.bool b)
  | byte b => tagged "byte" (.nat b.toNat)
  | int64 n => tagged "int64" (.int n.toInt)
  | uint64 n => tagged "uint64" (.nat n.toNat)
  | double x => tagged "double" (.number (JsonNumber.ofFloat x))
  | str s => tagged "str" (.text s)
  | bytes bs => tagged "bytes" (.array (bs.map fun b => .nat b.toNat))
  | dict entries => tagged "dict" (.object (membersToJson entries))
where
  /-- An object of a type and a value. -/
  tagged (name : String) (content : Json) : Json :=
    .ofFields [("type", .text name), ("value", content)]

def membersToJson : Properties → List (Option String × Json)
  | [] => []
  | (name, value) :: rest => (some name, toJson value) :: membersToJson rest

end

def propertiesToJson (properties : Properties) : Json := .object (membersToJson properties)

/-- The type and the content of a value, and whether the content was read
before it was understood, within the brackets that may be opened. -/
def tagged? (held : Bool) (depth : Nat) : Json → Option (String × Json × Bool)
  | .object members => do
    let names ← Json.names? members
    let type ← (← Json.member? "type" members) >>= Json.choice? held
    let content ← ← Json.member? "value" members
    let early := decide (names.idxOf "value" < names.idxOf "type")
    if early && !content.isSound depth then none else some (type, content, held || early)
  | .array [type, content] => (type.choice? held).map (·, content, held)
  | _ => none

/-- Reads entries under their names, the later over the earlier. -/
def entries? (decode : Json → Option Value) (members : List (Option String × Json)) :
    Option Properties := do
  let entries ← members.mapM fun (name, value) => do return (← name, ← decode value)
  return Named.ofList entries

/-- Reads a value within the brackets that may be opened; a value that is held
is part of a message that was read as a whole before. -/
def ofJson? : Bool → Nat → Json → Option Value
  | _, 0, _ => none
  | held, depth + 1, json =>
    match tagged? held depth json with
    | some ("bool", content, _) => content.bool?.map bool
    | some ("byte", content, _) => content.byte?.map byte
    | some ("int64", content, _) =>
      (content.intWithin? (-Text.signedLimit) (Text.signedLimit - 1)).map fun i =>
        int64 (Int64.ofInt i)
    | some ("uint64", content, _) => (content.natBelow? Text.wordLimit).map fun n =>
        uint64 (UInt64.ofNat n)
    | some ("double", content, _) => content.float?.map double
    | some ("str", content, _) => content.text?.map str
    | some ("bytes", content, _) =>
      if depth = 0 then none else (content.items? Json.byte?).map bytes
    | some ("dict", .object members, held) =>
      match depth with
      | 0 => none
      | depth + 1 => (entries? (ofJson? held depth) members).map dict
    | _ => none

/-- Reads properties within the brackets that may be opened. -/
def propertiesOfJson? (held : Bool) : Nat → Json → Option Properties
  | depth + 1, .object members => entries? (ofJson? held depth) members
  | _, _ => none

def ofText? (text : String) : Option Value :=
  Json.ofText? text.length text.toList >>= ofJson? false Json.depthLimit

def propertiesOfText? (text : String) : Option Properties :=
  Json.ofText? text.length text.toList >>= propertiesOfJson? false Json.depthLimit

def text (value : Value) : String := value.toJson.compact

end EventLog.Value
