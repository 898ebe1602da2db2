import EventLog.Record.Basic

/-!
# EventLog.Record.Binary

The binary form of a record:

    system  02 | generator, low byte first | 00, or 80 if it went | data, three bytes
    OEM     record type | data

System data shorter than three bytes is filled up with `FF`.
-/

namespace EventLog

/-- The mark of a condition that went, in the byte of the direction. -/
def deassertBit : UInt8 := 0x80

def encodeSystem? (data : List UInt8) (assert : Bool) (generator : UInt16) :
    Except RecordError (List UInt8) := do
  checkData systemDataLimit data
  return [systemRecordType, generator.toUInt8, (generator >>> 8).toUInt8,
      if assert then 0 else deassertBit]
    ++ data ++ List.replicate (systemDataLimit - data.length) unspecifiedByte

def encodeOem? (data : List UInt8) (recordType : UInt8) : Except RecordError (List UInt8) := do
  checkData oemDataLimit data
  return recordType :: data

def Record.encode? (record : Record) : Except RecordError (List UInt8) :=
  match record.origin with
  | .system generator _ assert => encodeSystem? record.data assert generator
  | .oem => encodeOem? record.data record.recordType

end EventLog
