import EventLog.Decimal.Fixed
import EventLog.Monitor.Basic
import EventLog.Scale.Basic

/-!
# EventLog.Monitor.Threshold

Sensors that cross a threshold.  A crossing comes in two forms: a signal that
names the sensor, the threshold and the direction, whose condition is tracked,
and an alarm signal with one name for each threshold and direction, which is
reported every time.
-/

namespace EventLog

/-- The thresholds of a sensor. -/
inductive ThresholdKind where
  | warningLow
  | criticalLow
  | warningHigh
  | criticalHigh
  deriving DecidableEq, Repr

namespace ThresholdKind

def all : List ThresholdKind := [warningLow, criticalLow, warningHigh, criticalHigh]

/-- The name of the property that holds a threshold. -/
def property : ThresholdKind → String
  | warningLow => "WarningLow"
  | criticalLow => "CriticalLow"
  | warningHigh => "WarningHigh"
  | criticalHigh => "CriticalHigh"

def interface : ThresholdKind → String
  | warningLow | warningHigh => "xyz.openbmc_project.Sensor.Threshold.Warning"
  | criticalLow | criticalHigh => "xyz.openbmc_project.Sensor.Threshold.Critical"

def offset : ThresholdKind → UInt8
  | warningLow => 0x00
  | criticalLow => 0x02
  | warningHigh => 0x07
  | criticalHigh => 0x09

def label : ThresholdKind → String
  | warningLow => "warning low"
  | criticalLow => "critical low"
  | warningHigh => "warning high"
  | criticalHigh => "critical high"

/-- Whether a threshold is crossed downwards. -/
def isLow : ThresholdKind → Bool
  | warningLow | criticalLow => true
  | warningHigh | criticalHigh => false

/-- Whether the reading goes down: a low threshold is crossed, or a reading
comes back from a high one. -/
def goesLow (kind : ThresholdKind) (assert : Bool) : Bool := kind.isLow == assert

def ofProperty? (name : String) : Option ThresholdKind := all.find? fun kind => kind.property == name

/-- A text without the first appearance of another text. -/
def without (word : List Char) : List Char → List Char
  | [] => []
  | c :: rest =>
    if word.isPrefixOf (c :: rest) then (c :: rest).drop word.length else c :: without word rest

/-- The threshold of an event name such as `CriticalAlarmLow`. -/
def ofEvent? (name : String) : Option ThresholdKind :=
  ofProperty? (String.ofList (without "Alarm".toList name.toList))

end ThresholdKind

/-- A reading that crossed a threshold. -/
structure Crossing where
  sender : String
  path : String
  sensor : String
  interface : String
  kind : ThresholdKind
  assert : Bool
  value : Float

namespace Crossing

/-- The interface that holds a sensor's range. -/
def valueInterface : String := "xyz.openbmc_project.Sensor.Value"

/-- The bits that say that the data holds a reading and a threshold. -/
def readingBits : UInt8 := 0x50

/-- The number of decimal places in messages. -/
def places : Nat := 6

/-- A reading in the sensor's range as a byte. -/
def rawByte (value low high : Float) : UInt8 :=
  match Coefficients.scaleWithin? value low high with
  | .ok raw => UInt8.ofNat raw
  | .error _ => unspecifiedByte

/-- A limit of the sensor's range; zero, if the sensor does not give it. -/
def limit (sensor : Properties) (name : String) : Except ValueError Float :=
  match Named.find? name sensor with
  | some value => value.asFloat
  | none => .ok 0.0

/-- What the record of a crossing says. -/
def message (c : Crossing) (threshold : Float) : String :=
  c.sensor ++ " sensor crossed a " ++ c.kind.label ++ " threshold going "
    ++ (if c.kind.goesLow c.assert then "low" else "high") ++ ". Reading="
    ++ Decimal.fixed places c.value ++ " Threshold=" ++ Decimal.fixed places threshold ++ "."

/-- The name of a crossing in the Redfish registry. -/
def redfishId (c : Crossing) : String :=
  "OpenBMC.0.1.SensorThreshold" ++ c.kind.property ++ "Going"
    ++ (if c.kind.goesLow c.assert then "Low" else "High")

/-- The record of a crossing.  The sensor is asked for its range, and for the
threshold, which the sensor's scale is applied to. -/
def record (peers : Peers) (c : Crossing) : QueryM Record := do
  let sensor ← QueryM.properties peers c.sender c.path valueInterface
  let high ← QueryM.typed (limit sensor "MaxValue")
  let low ← QueryM.typed (limit sensor "MinValue")
  let value ← QueryM.property peers c.sender c.path c.interface c.kind.property
  let stored ← QueryM.typed value.asFloat
  let threshold ← match Named.find? "Scale" sensor with
    | some scale => (stored * Float.pow 10.0 ·) <$> QueryM.typed scale.asFloat
    | none => pure stored
  let data := [c.kind.offset ||| readingBits, rawByte c.value low high, rawByte threshold low high]
  let made ← QueryM.made
    (Record.system? (c.message threshold) c.path data c.assert controllerGenerator)
  return (made.withMetadata "REDFISH_MESSAGE_ID" c.redfishId).withMetadata "REDFISH_MESSAGE_ARGS"
    (c.sensor ++ "," ++ Decimal.fixed places c.value ++ "," ++ Decimal.fixed places threshold)

/-- Reads a crossing out of a signal of all its particulars. -/
def ofSignal? (signal : Signal) : Except MonitorError Crossing := do
  let sensor ← signal.reading (signal.arg 0 >>= Value.asString)
  let interface ← signal.reading (signal.arg 1 >>= Value.asString)
  let event ← signal.reading (signal.arg 2 >>= Value.asString)
  let assert ← signal.reading (signal.arg 3 >>= Value.asBool)
  let value ← signal.reading (signal.arg 4 >>= Value.asFloat)
  match ThresholdKind.ofEvent? event with
  | some kind => return ⟨signal.sender, signal.path, sensor, interface, kind, assert, value⟩
  | none => throw (.unknown "threshold event" event)

/-- The member of a signal of all particulars. -/
def member : String := "ThresholdAsserted"

def alarmMember (kind : ThresholdKind) (assert : Bool) : String :=
  kind.property ++ "Alarm" ++ (if assert then "Asserted" else "Deasserted")

def alarms : List (ThresholdKind × Bool) :=
  ThresholdKind.all.flatMap fun kind => [(kind, true), (kind, false)]

/-- Reads a crossing out of an alarm signal; other signals are none. -/
def ofAlarm? (signal : Signal) : Except MonitorError (Option Crossing) :=
  match alarms.find? fun (kind, assert) => alarmMember kind assert == signal.member with
  | none => .ok none
  | some (kind, assert) => do
    let value ← signal.reading (signal.arg 0 >>= Value.asFloat)
    return some ⟨signal.sender, signal.path, objectName signal.path, kind.interface, kind, assert,
      value⟩

def condition (c : Crossing) : Condition := ⟨c.path, c.kind.property⟩

/-- What a crossing comes to; that of an alarm changes no condition. -/
def observe (peers : Peers) (tracked : Bool) (c : Crossing) : QueryM Observation := do
  let made ← record peers c
  return ⟨.record made, if tracked then some ⟨c.condition, c.assert⟩ else none⟩

end Crossing

end EventLog
