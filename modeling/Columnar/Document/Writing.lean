import Columnar.Document.Entities
import Columnar.Frame
import Columnar.Settings.Choice

/-! Frames as JSON documents. A document has a schema section with everything but the cells, a data
section with one array per field, or both. Documents held in cells are spliced in as they are. -/
namespace Columnar

namespace Kind

/-- The text of an element inside a document. Times are milliseconds; a special float is a null. -/
def document : (kind : Kind) → kind.Element → Octets
  | float32, x =>
    match SpecialFloat.ofClass? (Binary32.classify x) with
    | some _ => Json.null.octets
    | none => Json.ascii (NumberLayout.documentSingle.write .single (Binary32.classify x))
  | float64, x => (Json.ofReal x).octets
  | string, x => Json.stringOctets x
  | bool, x => (Json.bool x).octets
  | time, x => Json.ascii (integerChars (Instant.millis x))
  | json, x => RawJson.octets x
  | kind, x => Json.ascii (integerChars ((integer? kind x).getD 0))

end Kind

/-- The text of a cell inside a document. -/
def Cell.document {type : FieldType} (cell : Cell type) : Octets :=
  match cell.content with
  | some element => type.kind.document element
  | none => Json.null.octets

/-- The text of a column inside a document. -/
def Column.document (column : Column) : Octets :=
  Json.listOctets (column.cells.toList.map Cell.document)

/-- A member with a text, left out when the text is empty. -/
def Json.textMember (key text : String) : List (String × Json) :=
  if text.isEmpty then [] else [(key, .string text)]

/-- A type as it is described in a schema. -/
def FieldType.description (type : FieldType) : Json :=
  .object (("frame", .string type.kind.name)
    :: if type.nullable then [("nullable", .bool true)] else [])

/-- A field in a schema: everything but its cells. -/
def Field.description (field : Field) : Json :=
  .object (Json.textMember "name" field.name
    ++ [("type", .string field.type.kind.coarse.name), ("typeInfo", field.type.description)]
    ++ (if field.labels.isEmpty then [] else [("labels", field.labels.toJson)])
    ++ Json.optionalMember "config" (field.config.map FieldConfig.toJson))

namespace Frame

/-- The schema section. -/
def schema (frame : Frame) : Json :=
  .object (Json.textMember "name" frame.name ++ Json.textMember "refId" frame.refId
    ++ Json.optionalMember "meta" (frame.info.map FrameMeta.toJson)
    ++ [("fields", .list (frame.fields.map Field.description))])

/-- The special floats of all fields, or nothing if no field has any. -/
def entityTable? (frame : Frame) : Option Json :=
  let entities := frame.fields.map fun field => Entities.ofCells field.column.cells
  if entities.all Entities.isEmpty then none
  else some (.list (entities.map fun entry => if entry.isEmpty then .null else entry.toJson))

/-- The fields must have one length; a frame without fields has a data section too. -/
def checkLengths (frame : Frame) : Except Error Unit :=
  if frame.fields.isEmpty then .ok () else frame.rowCount.map fun _ => ()

/-- The text of the data section. -/
def dataSection (frame : Frame) : Except Error Octets := do
  frame.checkLengths
  return Json.objectOctets
    (("fields", Json.listOctets (frame.fields.map fun field => field.column.document))
      :: (match frame.entityTable? with
        | some table => [("entities", table.octets)]
        | none => []))

/-- The document of a frame with the wanted sections. -/
def document (frame : Frame) (parts : FrameParts) : Except Error Octets := do
  let schema := if parts.hasSchema then [("schema", frame.schema.octets)] else []
  let data ← if parts.hasData then (frame.dataSection).map fun data => [("data", data)] else .ok []
  return Json.objectOctets (schema ++ data)

/-- The documents of several frames as one array. -/
def documents (frames : List Frame) (parts : FrameParts) : Except Error Octets := do
  let documents ← frames.mapM fun frame => frame.document parts
  return Json.listOctets documents

end Frame

end Columnar
