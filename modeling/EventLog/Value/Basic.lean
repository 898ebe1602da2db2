import EventLog.Named
import EventLog.Text.Numeral

/-!
# EventLog.Value.Basic

Typed values, as the message bus carries them: in the arguments of signals and
in the properties of objects.  The entries of a dictionary are in the order of
their names (`Named`).
-/

namespace EventLog

/-- A typed value. -/
inductive Value where
  | bool (value : Bool)
  | byte (value : UInt8)
  | int64 (value : Int64)
  | uint64 (value : UInt64)
  | double (value : Float)
  | str (value : String)
  | bytes (value : List UInt8)
  | dict (entries : List (String × Value))

/-- The properties of an object, or the entries of a dictionary. -/
abbrev Properties := List (String × Value)

/-- Why a value is not what was asked for. -/
inductive ValueError where
  | typeMismatch (expected found : String)
  | missingArgument (index : Nat)
  deriving DecidableEq, Repr

def ValueError.message : ValueError → String
  | typeMismatch expected found => "expected " ++ expected ++ ", found " ++ found
  | missingArgument index => "missing argument " ++ Text.decimal index

namespace Value

def typeName : Value → String
  | bool _ => "bool"
  | byte _ => "byte"
  | int64 _ => "int64"
  | uint64 _ => "uint64"
  | double _ => "double"
  | str _ => "string"
  | bytes _ => "bytes"
  | dict _ => "dict"

def mismatch {α : Type} (value : Value) (expected : String) : Except ValueError α :=
  .error (.typeMismatch expected value.typeName)

def asBool : Value → Except ValueError Bool
  | bool b => .ok b
  | other => other.mismatch "bool"

def asString : Value → Except ValueError String
  | str s => .ok s
  | other => other.mismatch "string"

def asUInt64 : Value → Except ValueError UInt64
  | uint64 n => .ok n
  | other => other.mismatch "uint64"

def asBytes : Value → Except ValueError (List UInt8)
  | bytes bs => .ok bs
  | other => other.mismatch "bytes"

def asDict : Value → Except ValueError Properties
  | dict entries => .ok entries
  | other => other.mismatch "dict"

/-- The number of a value: sensors report doubles or signed numbers. -/
def asFloat : Value → Except ValueError Float
  | double x => .ok x
  | int64 n => .ok (Float.ofInt n.toInt)
  | other => other.mismatch "double or int64"

end Value

end EventLog
