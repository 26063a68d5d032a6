import Columnar.Arrow.Reading
import Columnar.Arrow.Transport
import Columnar.Flat.Writing
import Columnar.Settings.Choice

/-! Record batches written as octets, in either layout. Only types are written whose values are known
here. -/
namespace Columnar

/-- The code of a unit. -/
def TimeUnit.code : TimeUnit → Nat
  | .second => 0
  | .millisecond => 1
  | .microsecond => 2
  | .nanosecond => 3

namespace ArrowType

/-- A table of an integer type. -/
def integerPart (bits : Nat) (signed : Bool) : FlatPart :=
  .table [.number 4 bits, .number 1 (if signed then 1 else 0)]

/-- The code of a type and its table. -/
def part? : ArrowType → Option (Nat × FlatPart)
  | .int8 => some (2, integerPart 8 true)
  | .int16 => some (2, integerPart 16 true)
  | .int32 => some (2, integerPart 32 true)
  | .int64 => some (2, integerPart 64 true)
  | .uint8 => some (2, integerPart 8 false)
  | .uint16 => some (2, integerPart 16 false)
  | .uint32 => some (2, integerPart 32 false)
  | .uint64 => some (2, integerPart 64 false)
  | .float32 => some (3, .table [.number 2 1])
  | .float64 => some (3, .table [.number 2 2])
  | .binary => some (4, .table [])
  | .utf8 => some (5, .table [])
  | .boolean => some (6, .table [])
  | .timestamp unit zone =>
    some (10, .table [.number 2 unit.code, match zone with
      | none => .empty
      | some zone => .part (.text zone)])
  | .largeBinary => some (19, .table [])
  | .largeUtf8 => some (20, .table [])
  | _ => none

end ArrowType

/-- Texts under keys as tables of pairs. -/
def textMapPart (texts : List (String × String)) : FlatPart :=
  .list (texts.map fun (key, value) => .table [.part (.text key), .part (.text value)])

/-- The table of a field. -/
def ArrowField.part? (field : ArrowField) : Option FlatPart := do
  let (code, type) ← field.type.part?
  return .table
    [.part (.text field.name), .number 1 (if field.nullable then 1 else 0), .number 1 code,
     .part type, .empty, .part (.list []), .part (textMapPart field.metadata)]

/-- The table of the schema of columns. -/
def schemaPart? (batch : ArrowBatch) : Option FlatPart := do
  let fields ← batch.columns.mapM fun column => column.field.part?
  return .table [.number 2 0, .part (.list fields), .part (textMapPart batch.metadata)]

/-- The version of the format that is written. -/
def formatVersion : Nat := 4

/-- A message about something, in front of a body of some length. -/
def messagePart (code : Nat) (header : FlatPart) (bodyLength : Nat) : FlatPart :=
  .table [.number 2 formatVersion, .number 1 code, .part header, .number 8 bodyLength]

/-- A message with the mark and its length in front. -/
def messageOctets (message : FlatPart) : Octets :=
  let contents := Flat.document message
  continuationMark ++ littleEndian 4 contents.length ++ contents

/-- What is written in the place of a message at the end of all messages. -/
def endMark : Octets := continuationMark ++ [0, 0, 0, 0]

/-- Bits in octets, so many of them, the first bit lowest. -/
def packBits : Nat → List Bool → Octets
  | 0, _ => []
  | count + 1, bits =>
    let octet := (bits.take 8).foldr (fun bit n => 2 * n + if bit then 1 else 0) 0
    octet.toUInt8 :: packBits count (bits.drop 8)

/-- Bits in as many octets as they need. -/
def bitOctets (bits : List Bool) : Octets := packBits ((bits.length + 7) / 8) bits

/-- Values of a fixed width one after the other; what is not there is zero. -/
def fixedOctets {α : Type} (width : Nat) (pattern : α → Nat) (slots : List (Option α)) : Octets :=
  slots.flatMap fun slot => littleEndian width ((slot.map pattern).getD 0)

/-- The offsets of values one after the other, beginning at zero. -/
def offsetOctets (width : Nat) : Nat → List Octets → Octets
  | offset, [] => littleEndian width offset
  | offset, value :: rest =>
    littleEndian width offset ++ offsetOctets width (offset + value.length) rest

/-- The two buffers of values of any length. -/
def variableBuffers (width : Nat) (slots : List (Option Octets)) : List Octets :=
  let values := slots.map (·.getD [])
  [offsetOctets width 0 values, values.flatten]

/-- The buffers of the values of a type. -/
def ArrowType.buffers : (type : ArrowType) → List (Option type.storage.Slot) → List Octets
  | .int8, slots => [fixedOctets 1 (fun x => signPattern 1 (Int8.toInt x)) slots]
  | .int16, slots => [fixedOctets 2 (fun x => signPattern 2 (Int16.toInt x)) slots]
  | .int32, slots => [fixedOctets 4 (fun x => signPattern 4 (Int32.toInt x)) slots]
  | .int64, slots => [fixedOctets 8 (fun x => signPattern 8 (Int64.toInt x)) slots]
  | .uint8, slots => [fixedOctets 1 UInt8.toNat slots]
  | .uint16, slots => [fixedOctets 2 UInt16.toNat slots]
  | .uint32, slots => [fixedOctets 4 UInt32.toNat slots]
  | .uint64, slots => [fixedOctets 8 UInt64.toNat slots]
  | .float32, slots => [fixedOctets 4 (fun x => (Binary32.bits x).toNat) slots]
  | .float64, slots => [fixedOctets 8 (fun x => (Binary64.bits x).toNat) slots]
  | .timestamp _ _, slots => [fixedOctets 8 (fun x => signPattern 8 (Int64.toInt x)) slots]
  | .boolean, slots => [bitOctets (slots.map fun slot => slot.getD false)]
  | .utf8, slots => variableBuffers 4 (slots.map fun slot => slot.map Octets.ofString)
  | .largeUtf8, slots => variableBuffers 8 (slots.map fun slot => slot.map Octets.ofString)
  | .binary, slots => variableBuffers 4 slots
  | .largeBinary, slots => variableBuffers 8 slots
  | _, _ => []

namespace ArrowColumn

/-- The buffers of a column. The bits of the values are left out when all values are there. -/
def buffers (column : ArrowColumn) : List Octets :=
  (if column.hasNull then bitOctets (column.slots.map Option.isSome) else [])
    :: column.field.type.buffers column.slots

def nullCount (column : ArrowColumn) : Nat := column.slots.countP Option.isNone

end ArrowColumn

/-- Where buffers stand in a body, counted from an offset. -/
def bufferRecords : Nat → List Octets → Octets
  | _, [] => []
  | offset, buffer :: rest =>
    littleEndian 8 offset ++ littleEndian 8 buffer.length
      ++ bufferRecords (offset + buffer.padded.length) rest

namespace ArrowBatch

def buffers (batch : ArrowBatch) : List Octets := batch.columns.flatMap ArrowColumn.buffers

/-- The table of a batch. -/
def part (batch : ArrowBatch) : FlatPart :=
  let nodes := batch.columns.flatMap fun column =>
    littleEndian 8 column.size ++ littleEndian 8 column.nullCount
  .table [.number 8 batch.rows, .part (.records batch.columns.length nodes),
    .part (.records batch.buffers.length (bufferRecords 0 batch.buffers))]

def body (batch : ArrowBatch) : Octets := batch.buffers.flatMap Octets.padded

/-- The octets of a batch in a layout. -/
def write (batch : ArrowBatch) (layout : ArrowLayout) : Option Octets := do
  let schema ← schemaPart? batch
  let schemaMessage := messageOctets (messagePart 1 schema 0)
  let body := batch.body
  let batchMessage := messageOctets (messagePart 3 batch.part body.length)
  match layout with
  | .stream => return schemaMessage ++ batchMessage ++ body ++ endMark
  | .file =>
    let opening := fileMagic ++ [0, 0]
    let block := littleEndian 8 (opening.length + schemaMessage.length)
      ++ littleEndian 4 batchMessage.length ++ [0, 0, 0, 0] ++ littleEndian 8 body.length
    let footer := Flat.document (.table [.number 2 formatVersion, .part schema,
      .part (.records 0 []), .part (.records 1 block)])
    return opening ++ schemaMessage ++ batchMessage ++ body ++ endMark ++ footer
      ++ littleEndian 4 footer.length ++ fileMagic

end ArrowBatch

namespace Frame

/-- The octets of a frame in a layout. -/
def toArrowOctets (frame : Frame) (layout : ArrowLayout) : Except Error Octets := do
  let batch ← frame.toArrow
  match batch.write layout with
  | some octets => return octets
  | none => .error .arrow

/-- The frame of octets in either layout. -/
def ofArrowOctets (octets : Octets) : Except Error Frame := do
  let table ← (ArrowTable.read octets).mapError .storage
  ofArrow table.batch

end Frame

end Columnar
