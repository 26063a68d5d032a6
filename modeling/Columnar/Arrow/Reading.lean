import Columnar.Arrow.Writing

/-! Frames from record batches. The type of a field follows from the data type of its column and
from whether it may lack values; of the texts that describe it, the name of the type matters only to
tell indexes from numbers. Batches that were made elsewhere have no such texts and can be read
too. -/
namespace Columnar

namespace Kind

/-- Stored values as cells of a kind; a value that does not fit is an error. -/
def column (kind : Kind) (field : Nat) (nullable : Bool) (contents : List (Option kind.Element)) :
    Except Error Column := do
  let type : FieldType := ⟨kind, nullable⟩
  let cells ← contents.mapM fun content =>
    match content with
    | some element => .ok (Cell.of element : Cell type)
    | none =>
      if allowed : type.nullable = true then .ok (Cell.empty allowed)
      else .error (.nullNotAllowed (some field) type)
  return ⟨type, ⟨cells⟩⟩

end Kind

/-- A count of a unit as an instant, if its nanoseconds fit 64 bits. -/
def TimeUnit.instant? (unit : TimeUnit) (count : Int64) : Option Instant :=
  let nanos := count.toInt * unit.nanos
  if -0x8000000000000000 ≤ nanos ∧ nanos < 0x8000000000000000 then Instant.ofNanos? nanos else none

/-- Values, counted from a row, each read by a function that may fail. -/
def readSlots {α β : Type} (read : Nat → α → Except Error β) :
    Nat → List (Option α) → Except Error (List (Option β))
  | _, [] => .ok []
  | row, none :: rest => (readSlots read (row + 1) rest).map (none :: ·)
  | row, some slot :: rest => do
    let value ← read row slot
    let rest ← readSlots read (row + 1) rest
    return some value :: rest

/-- A stored document, whose syntax is checked. -/
def readDocument (field row : Nat) (octets : Octets) : Except Error RawJson :=
  match RawJson.parse octets with
  | .ok raw => .ok raw
  | .error fault => .error (.storage (.rawDocument field row fault))

/-- A stored time. -/
def readTimestamp (unit : TimeUnit) (field row : Nat) (count : Int64) : Except Error Instant :=
  match unit.instant? count with
  | some t => .ok t
  | none => .error (.storage (.timestampOverflow field row))

namespace ArrowType

/-- The column that stored values of a data type stand for. -/
def column (field : Nat) (nullable isIndex : Bool) : (type : ArrowType) →
    List (Option type.storage.Slot) → Except Error Column
  | .int8, slots => Kind.int8.column field nullable slots
  | .int16, slots => Kind.int16.column field nullable slots
  | .int32, slots => Kind.int32.column field nullable slots
  | .int64, slots => Kind.int64.column field nullable slots
  | .uint8, slots => Kind.uint8.column field nullable slots
  | .uint16, slots =>
    if isIndex then Kind.enum.column field nullable slots
    else Kind.uint16.column field nullable slots
  | .uint32, slots => Kind.uint32.column field nullable slots
  | .uint64, slots => Kind.uint64.column field nullable slots
  | .float32, slots => Kind.float32.column field nullable slots
  | .float64, slots => Kind.float64.column field nullable slots
  | .utf8, slots => Kind.string.column field nullable slots
  | .largeUtf8, slots => Kind.string.column field nullable slots
  | .boolean, slots => Kind.bool.column field nullable slots
  | .timestamp unit _, slots => do
    let times ← readSlots (readTimestamp unit field) 0 slots
    Kind.time.column field nullable times
  | .binary, slots => do
    let documents ← readSlots (readDocument field) 0 slots
    Kind.json.column field nullable documents
  | .largeBinary, slots => do
    let documents ← readSlots (readDocument field) 0 slots
    Kind.json.column field nullable documents
  | type, _ => .error (.unsupportedArrowType type.name)

end ArrowType

namespace ArrowColumn

/-- A text that describes the field. -/
def text? (column : ArrowColumn) (key : String) : Option String :=
  column.field.metadata.lookup key

/-- Whether the field is described as one of indexes. A name that is no type says nothing. -/
def isIndex (column : ArrowColumn) : Bool :=
  match column.text? fieldTypeKey with
  | none => false
  | some name =>
    match FieldType.parse name with
    | .ok type => type.kind == .enum
    | .error _ => false

/-- The labels of the field; a column without a text for them has none. -/
def labels (position : Nat) (column : ArrowColumn) : Except Error Labels :=
  match column.text? labelsKey with
  | none => .ok Labels.empty
  | some text =>
    (DraftReader.ofText (fun _ => Labels.read) (Octets.ofString text)).mapError fun fault =>
      .storage (.labels position fault)

/-- The configuration of the field, if the column has a text for it. -/
def config (position : Nat) (column : ArrowColumn) : Except Error (Option FieldConfig) :=
  match column.text? configKey with
  | none => .ok none
  | some text =>
    ((FieldConfig.parse (Octets.ofString text)).map some).mapError fun fault =>
      .storage (.config position fault)

/-- The field of a column. -/
def toField (position : Nat) (column : ArrowColumn) : Except Error Field := do
  let cells ← column.field.type.column position column.field.nullable column.isIndex column.slots
  let labels ← column.labels position
  let config ← column.config position
  return { name := (column.text? nameKey).getD column.field.name
           labels := labels
           config := config
           column := cells }

/-- The fields of columns counted from a position. -/
def toFields : Nat → List ArrowColumn → Except Error (List Field)
  | _, [] => .ok []
  | position, column :: rest => do
    let field ← column.toField position
    let rest ← toFields (position + 1) rest
    return field :: rest

end ArrowColumn

/-- The metadata of the frame, if the batch has a text for them. -/
def ArrowBatch.info (batch : ArrowBatch) : Except Error (Option FrameMeta) :=
  match batch.metadata.lookup frameMetaKey with
  | none => .ok none
  | some text =>
    ((FrameMeta.parse (Octets.ofString text)).map some).mapError fun fault =>
      .storage (.frameMeta fault)

/-- The frame of a record batch. -/
def Frame.ofArrow (batch : ArrowBatch) : Except Error Frame := do
  let info ← batch.info
  let fields ← ArrowColumn.toFields 0 batch.columns
  return { name := (batch.metadata.lookup nameKey).getD ""
           refId := (batch.metadata.lookup refIdKey).getD ""
           fields := fields
           info := info }

end Columnar
