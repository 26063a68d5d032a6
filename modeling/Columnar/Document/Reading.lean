import Columnar.Document.Content
import Columnar.Frame

/-! Frames from JSON documents. The types come from the schema, or from the first cell of each column
where there is none; every cell must then fit its type, and nothing is made of a document of which
some part does not fit. -/
namespace Columnar

namespace Json

/-- The signed integer of 64 bits that a value is. -/
def signed? : Json → Option Int
  | number n => n.signed?
  | _ => none

/-- The natural number of 64 bits that a value is. -/
def natural? : Json → Option Nat
  | number n => n.natural?
  | _ => none

/-- The integer that a value is, if it lies in a range. -/
def integerWithin? (low high : Int) (value : Json) : Option Int :=
  value.signed?.filter fun n => decide (low ≤ n ∧ n ≤ high)

/-- The natural number that a value is, if it is below a bound. -/
def naturalBelow? (bound : Nat) (value : Json) : Option Nat :=
  value.natural?.filter fun n => decide (n < bound)

/-- The number that a value is, as a float. -/
def real? : Json → Option Binary64
  | number n => some n.toBinary64
  | _ => none

/-- The time that a value stands for: milliseconds, with a fraction or without, or the text of a
time. -/
def instant? : Json → Option Instant
  | number n =>
    match n.signed? with
    | some millis => Instant.ofMillis? millis
    | none =>
      let nanos := n.toBinary64.mul (Binary64.ofInt 1000000)
      Instant.ofNanos? (nanos.truncateWithin (-0x8000000000000000) 0x7FFFFFFFFFFFFFFF)
  | string s =>
    match Rfc3339.read (Octets.ofString s) with
    | .ok t => some t
    | .error _ => none
  | _ => none

end Json

/-- The element of a kind that a value stands for. -/
def Kind.ofJson? : (kind : Kind) → Json → Option kind.Element
  | .int8, value => (value.integerWithin? (-0x80) 0x7F).map Int8.ofInt
  | .int16, value => (value.integerWithin? (-0x8000) 0x7FFF).map Int16.ofInt
  | .int32, value => (value.integerWithin? (-0x80000000) 0x7FFFFFFF).map Int32.ofInt
  | .int64, value => value.signed?.map Int64.ofInt
  | .uint8, value => (value.naturalBelow? 0x100).map UInt8.ofNat
  | .uint16, value => (value.naturalBelow? 0x10000).map UInt16.ofNat
  | .uint32, value => (value.naturalBelow? 0x100000000).map UInt32.ofNat
  | .uint64, value => value.natural?.map UInt64.ofNat
  | .float32, value => value.real?.map Binary32.ofBinary64
  | .float64, value => value.real?
  | .string, .string s => some s
  | .bool, .bool b => some b
  | .time, value => value.instant?
  | .json, value => some (RawJson.ofValue value)
  | .enum, value => (value.naturalBelow? 0x10000).map UInt16.ofNat
  | _, _ => none

/-- What a value stands for in a cell of a type. A null is nothing, except that a document which
must be there is the document of null. -/
def FieldType.contentOf? (type : FieldType) (value : Json) : Option (Option type.kind.Element) :=
  match value with
  | .null =>
    if type.kind = .json ∧ type.nullable = false then some (type.kind.ofJson? .null) else some none
  | value => (type.kind.ofJson? value).map some

namespace DataContent

/-- The contents of the cells from a row on. -/
def contents (field : Nat) (type : FieldType) :
    Nat → List Json → Except Error (List (Option type.kind.Element))
  | _, [] => .ok []
  | row, value :: rest =>
    match type.contentOf? value with
    | none => .error (.document (.cell field row type value))
    | some content => (contents field type (row + 1) rest).map (content :: ·)

/-- A special float put into cells at the given rows. -/
def place {type : FieldType} (field : Nat) (special : SpecialFloat)
    (cells : List (Option type.kind.Element)) (rows : List Nat) :
    Except Error (List (Option type.kind.Element)) :=
  rows.foldlM (fun cells row =>
    if row < cells.length then .ok (cells.set row (special.element? type.kind))
    else .error (.document (.entityRow field row cells.length))) cells

/-- All special floats of a column put into its cells. -/
def placeEntities {type : FieldType} (field : Nat) (cells : List (Option type.kind.Element))
    (entities : Entities) : Except Error (List (Option type.kind.Element)) := do
  if !entities.isEmpty && !type.kind.isFloat then
    .error (.document (.entitiesOnOther field type))
  else
    let cells ← place field .nan cells entities.nan
    let cells ← place field .infinity cells entities.infinity
    place field .negInfinity cells entities.negInfinity

/-- The cell with a content; what the type requires must be there. -/
def requireCell {type : FieldType} (field : Nat) (content : Option type.kind.Element) :
    Except Error (Cell type) :=
  match content with
  | some element => .ok (Cell.of element)
  | none =>
    if allowed : type.nullable = true then .ok (Cell.empty allowed)
    else .error (.nullNotAllowed (some field) type)

/-- The column of a type from the values of its cells. -/
def column (field : Nat) (type : FieldType) (values : List Json) (entities : Option Entities) :
    Except Error Column := do
  let cells ← contents field type 0 values
  let cells ← match entities with
    | some entities => placeEntities field cells entities
    | none => .ok cells
  let cells ← cells.mapM (requireCell field)
  return ⟨type, ⟨cells⟩⟩

/-- The columns from a position on. A column beyond the end of the entity table has no entries. -/
def columnsFrom : Nat → List FieldType → List (List Json) → List (Option Entities) →
    Except Error (List Column)
  | position, type :: types, values :: columns, entities => do
    let first ← column position type values entities.head?.join
    let rest ← columnsFrom (position + 1) types columns entities.tail
    return first :: rest
  | _, _, _, _ => .ok []

/-- The columns of a data section: as many as there are types, and all of one length. -/
def columnsOf (data : DataContent) (types : List FieldType) : Except Error (List Column) := do
  if data.columns.length ≠ types.length then
    .error (.fieldCount types.length data.columns.length)
  else if types.length < data.entities.length then
    .error (.document (.entityCount data.entities.length types.length))
  else
    let columns ← columnsFrom 0 types data.columns data.entities
    match columns.map Column.size with
    | [] => return columns
    | first :: rest =>
      match firstUneven? first 1 rest with
      | none => return columns
      | some error => .error error

/-- The type of a column that has none declared, from its first value that is not null. -/
def inferType (values : List Json) : FieldType :=
  match values.find? fun value => !value.isNull with
  | some (.bool _) => ⟨.bool, true⟩
  | some (.string _) => ⟨.string, true⟩
  | some (.list _) | some (.object _) => ⟨.json, true⟩
  | _ => ⟨.float64, true⟩

end DataContent

namespace FieldContent

/-- The type of a field: the exact one if it is described, else the one that its coarse type stands
for. -/
def resolveType (position : Nat) (field : FieldContent) : Except Error FieldType :=
  match field.type with
  | some described => do
    let type ← FieldType.parse described.name
    return if described.nullable then type.allowingNull else type
  | none =>
    let name := field.coarse.getD CoarseType.other.name
    match CoarseType.ofName? name with
    | some coarse => .ok coarse.defaultFieldType
    | none => .error (.document (.fieldType position name))

/-- The fields of a schema from a position on, without cells. -/
def fieldsFrom : Nat → List FieldContent → Except Error (List Field)
  | _, [] => .ok []
  | position, field :: rest => do
    let type ← field.resolveType position
    let rest ← fieldsFrom (position + 1) rest
    return { name := field.name
             labels := field.labels.getD Labels.empty
             config := field.config
             column := Column.zeros type 0 } :: rest

end FieldContent

namespace Frame

/-- The frame of a schema, without rows. -/
def ofSchema (schema : SchemaContent) : Except Error Frame := do
  let fields ← FieldContent.fieldsFrom 0 schema.fields
  return { name := schema.name, refId := schema.refId, fields, info := schema.info }

/-- The frame with the cells of a data section in place of its own. -/
def withData (frame : Frame) (data : DataContent) : Except Error Frame := do
  let columns ← data.columnsOf frame.types
  return { frame with fields := List.zipWith Field.withColumn frame.fields columns }

/-- The frame of a document. A data section without fields in the schema brings its own. -/
def ofContent (content : DocumentContent) : Except Error Frame := do
  let frame ← match content.schema with
    | some schema => ofSchema schema
    | none => .ok {}
  match content.data with
  | none => return frame
  | some data =>
    let inferred := data.columns.map fun values =>
      Field.zeros "" (DataContent.inferType values) 0
    let frame := if frame.fields.isEmpty then { frame with fields := inferred } else frame
    frame.withData data

/-- The frame of a document that has been read as a value. -/
def ofJson (value : Json) : Except Error Frame := do
  let content ← (DocumentContent.ofJson value).mapError .document
  ofContent content

/-- The frame of the text of a document. -/
def ofDocument (octets : Octets) : Except Error Frame := do
  let value ← (Json.read octets).mapError fun fault => .document (.malformed (.malformed fault))
  ofJson value

/-- The frames of an array of documents. -/
def ofDocuments (octets : Octets) : Except Error (List Frame) := do
  let values ← (DraftReader.ofText (fun _ => DraftReader.listOf DraftReader.json) octets).mapError
    fun fault => .document (.malformed fault)
  values.mapM ofJson

/-- The frame with the cells of the data section of a document. The frame has the types; nothing but
cells changes. -/
def replaceData (frame : Frame) (octets : Octets) : Except Error Frame := do
  let value ← (Json.read octets).mapError fun fault => .document (.malformed (.malformed fault))
  let content ← (DocumentContent.ofJson value).mapError .document
  match content.data with
  | none => .error (.document .noData)
  | some data => frame.withData data

end Frame

end Columnar
