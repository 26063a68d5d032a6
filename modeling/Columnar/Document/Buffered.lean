import Columnar.Document.Writing

/-! Documents written piece by piece into a buffer. Every piece goes to the end of the buffer, and
what has been written stays there when a later piece cannot be written. -/
namespace Columnar

/-- Writing at the end of a buffer. -/
abbrev BufferWriter := ExceptT Error (StateM Octets)

namespace BufferWriter

/-- Runs a writer on a buffer that holds something already. -/
def runOn {α : Type} (writer : BufferWriter α) (contents : Octets) : Except Error α × Octets :=
  StateT.run (ExceptT.run writer) contents

def put (octets : Octets) : BufferWriter Unit := modify (· ++ octets)

/-- All that is in the buffer. -/
def contents : BufferWriter Octets := get

def clear : BufferWriter Unit := set ([] : Octets)

/-- The comma before what is not the first. -/
def comma (started : Bool) : BufferWriter Unit := if started then put [0x2C] else pure ()

/-- Items with commas between them, after others or as the first ones. -/
def items {α : Type} (started : Bool) : List (BufferWriter α) → BufferWriter (List α)
  | [] => pure []
  | item :: rest => do
    comma started
    let result ← item
    let results ← items true rest
    return result :: results

/-- An array of items, with what writing each of them gives. -/
def list {α : Type} (writers : List (BufferWriter α)) : BufferWriter (List α) := do
  put [0x5B]
  let results ← items false writers
  put [0x5D]
  return results

end BufferWriter

open BufferWriter

/-- An object that is being written, and whether it has a member yet. -/
structure ObjectWriter where
  started : Bool := false

namespace ObjectWriter

def start : BufferWriter ObjectWriter := do
  put [0x7B]
  return {}

/-- A member up to its value, which is written next. -/
def key (object : ObjectWriter) (name : String) : BufferWriter ObjectWriter := do
  comma object.started
  put (Json.stringOctets name)
  put [0x3A]
  return { started := true }

def entry (object : ObjectWriter) (name : String) (value : Json) : BufferWriter ObjectWriter := do
  let object ← object.key name
  put value.octets
  return object

/-- A member that is written only when there is something to write. -/
def optional (object : ObjectWriter) (name : String) (value : Option Json) :
    BufferWriter ObjectWriter :=
  match value with
  | some value => object.entry name value
  | none => pure object

/-- A member with a text, left out when the text is empty. -/
def text (object : ObjectWriter) (name text : String) : BufferWriter ObjectWriter :=
  if text.isEmpty then pure object else object.entry name (.string text)

/-- A member whose value is written by a writer of its own, if it is wanted. -/
def part (object : ObjectWriter) (wanted : Bool) (name : String) (write : BufferWriter Unit) :
    BufferWriter ObjectWriter :=
  if wanted then do
    let object ← object.key name
    write
    return object
  else pure object

def close (_ : ObjectWriter) : BufferWriter Unit := put [0x7D]

end ObjectWriter

/-- The entities with one more row for a special float. -/
def Entities.note (entities : Entities) (row : Nat) : SpecialFloat → Entities
  | .nan => { entities with nan := entities.nan ++ [row] }
  | .infinity => { entities with infinity := entities.infinity ++ [row] }
  | .negInfinity => { entities with negInfinity := entities.negInfinity ++ [row] }

namespace Column

/-- The cells from a row on. A special float is noted where its null is written. -/
def writeCells {type : FieldType} : Nat → Entities → List (Cell type) → BufferWriter Entities
  | _, entities, [] => pure entities
  | row, entities, cell :: rest => do
    comma (row ≠ 0)
    put cell.document
    let entities := match cell.content.bind type.kind.special? with
      | some special => entities.note row special
      | none => entities
    writeCells (row + 1) entities rest

/-- The array of the cells of a column, and the special floats among them. -/
def write (column : Column) : BufferWriter Entities := do
  put [0x5B]
  let entities ← writeCells 0 {} column.cells.toList
  put [0x5D]
  return entities

end Column

/-- A type as a schema describes it. -/
def FieldType.writeDescription (type : FieldType) : BufferWriter Unit := do
  let object ← ObjectWriter.start
  let object ← object.entry "frame" (.string type.kind.name)
  let object ← object.optional "nullable" (if type.nullable then some (.bool true) else none)
  object.close

/-- A field in a schema: everything but its cells. -/
def Field.writeDescription (field : Field) : BufferWriter Unit := do
  let object ← ObjectWriter.start
  let object ← object.text "name" field.name
  let object ← object.entry "type" (.string field.type.kind.coarse.name)
  let object ← object.part true "typeInfo" field.type.writeDescription
  let object ← object.optional "labels"
    (if field.labels.isEmpty then none else some field.labels.toJson)
  let object ← object.optional "config" (field.config.map FieldConfig.toJson)
  object.close

namespace Frame

/-- The schema section. -/
def writeSchema (frame : Frame) : BufferWriter Unit := do
  let object ← ObjectWriter.start
  let object ← object.text "name" frame.name
  let object ← object.text "refId" frame.refId
  let object ← object.optional "meta" (frame.info.map FrameMeta.toJson)
  let object ← object.key "fields"
  let _ ← list (frame.fields.map Field.writeDescription)
  object.close

/-- The data section. Lengths are compared before anything is written. -/
def writeData (frame : Frame) : BufferWriter Unit := do
  frame.checkLengths
  let object ← ObjectWriter.start
  let object ← object.key "fields"
  let entities ← list (frame.fields.map fun field => field.column.write)
  let object ← object.optional "entities" (if entities.all Entities.isEmpty then none
    else some (.list (entities.map fun entry => if entry.isEmpty then .null else entry.toJson)))
  object.close

/-- The document of a frame with the wanted sections. -/
def writeDocument (frame : Frame) (parts : FrameParts) : BufferWriter Unit := do
  let object ← ObjectWriter.start
  let object ← object.part parts.hasSchema "schema" frame.writeSchema
  let object ← object.part parts.hasData "data" frame.writeData
  object.close

/-- The documents of several frames as one array. -/
def writeDocuments (frames : List Frame) (parts : FrameParts) : BufferWriter Unit := do
  let _ ← list (frames.map fun frame => frame.writeDocument parts)

end Frame

end Columnar
