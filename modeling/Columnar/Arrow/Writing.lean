import Columnar.Arrow.Batch
import Columnar.Frame

/-! Frames as record batches. Each field becomes a column of the same name; what a column cannot say
about its field, and a batch about its frame, goes into the texts of the schema. -/
namespace Columnar

/-- Keys of the texts in a schema and its fields. -/
def nameKey : String := "name"
def labelsKey : String := "labels"
def configKey : String := "config"
def fieldTypeKey : String := "tstype"
def refIdKey : String := "refId"
def frameMetaKey : String := "meta"

/-- Texts under keys, in the order of the keys; an absent text has no key. -/
def metadataOf (texts : List (String × Option String)) : List (String × String) :=
  texts.foldl (fun pairs (key, text) =>
    match text with
    | some text => Keyed.insert key text pairs
    | none => pairs) []

/-- The texts that describe a field. -/
def Field.arrowMetadata (field : Field) : List (String × String) :=
  metadataOf
    [(nameKey, some field.name),
     (fieldTypeKey, some field.type.name),
     (labelsKey, if field.labels.isEmpty then none else some field.labels.toJson.text),
     (configKey, field.config.map fun config => config.toJson.text)]

/-- The texts that describe a frame. -/
def Frame.arrowMetadata (frame : Frame) : List (String × String) :=
  metadataOf
    [(nameKey, some frame.name),
     (refIdKey, some frame.refId),
     (frameMetaKey, frame.info.map fun info => info.toJson.text)]

def Field.arrowField (field : Field) : ArrowField where
  name := field.name
  type := field.type.kind.arrowType
  nullable := field.type.nullable
  dictionaryId := 0
  ordered := false
  metadata := field.arrowMetadata

/-- An element as it is stored. A time outside the nanoseconds of 64 bits is named by its cell. -/
def Kind.toSlot (field row : Nat) : (kind : Kind) → kind.Element →
    Except Error kind.arrowType.storage.Slot
  | int8, x => .ok x
  | int16, x => .ok x
  | int32, x => .ok x
  | int64, x => .ok x
  | uint8, x => .ok x
  | uint16, x => .ok x
  | uint32, x => .ok x
  | uint64, x => .ok x
  | float32, x => .ok x
  | float64, x => .ok x
  | string, x => .ok x
  | bool, x => .ok x
  | time, x =>
    match Instant.nanos? x with
    | some nanos => .ok (Int64.ofInt nanos)
    | none => .error (.storage (.timeOutOfRange field row x))
  | json, x => .ok (RawJson.octets x)
  | enum, x => .ok x

/-- Cells, counted from a row, as they are stored. -/
def Cell.toSlots {type : FieldType} (field : Nat) : Nat → List (Cell type) →
    Except Error (List (Option type.kind.arrowType.storage.Slot))
  | _, [] => .ok []
  | row, cell :: rest => do
    let slot ← match cell.content with
      | none => .ok none
      | some element => (type.kind.toSlot field row element).map some
    let rest ← toSlots field (row + 1) rest
    return slot :: rest

namespace Frame

/-- The columns of fields counted from a position. -/
def arrowColumns : Nat → List Field → Except Error (List ArrowColumn)
  | _, [] => .ok []
  | position, field :: rest => do
    let slots ← Cell.toSlots position 0 field.column.cells.toList
    let rest ← arrowColumns (position + 1) rest
    return ⟨field.arrowField, slots⟩ :: rest

/-- The rows of the record batch; a frame without fields has none. -/
def arrowRows (frame : Frame) : Except Error Nat :=
  if frame.fields.isEmpty then .ok 0 else frame.rowCount

/-- The record batch of a frame. -/
def toArrow (frame : Frame) : Except Error ArrowBatch := do
  let rows ← frame.arrowRows
  let columns ← arrowColumns 0 frame.fields
  return { metadata := frame.arrowMetadata, rows, columns }

end Frame

end Columnar
