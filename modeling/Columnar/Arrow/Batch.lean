import Columnar.Arrow.Type

/-! Record batches: columns of stored values, each under the field of a schema, some of the values
absent. -/
namespace Columnar

/-- A column of a record batch: for every row a value or nothing. -/
structure ArrowColumn where
  field : ArrowField
  slots : List (Option field.type.storage.Slot)

namespace ArrowColumn

def size (column : ArrowColumn) : Nat := column.slots.length

/-- Whether some row has no value. -/
def hasNull (column : ArrowColumn) : Bool := column.slots.any Option.isNone

/-- The rows of two columns that are stored alike, one after the other. -/
def append (first second : ArrowColumn) : ArrowColumn :=
  if same : second.field.type.storage = first.field.type.storage then
    ⟨first.field, first.slots ++ same ▸ second.slots⟩
  else first

end ArrowColumn

/-- A record batch, with the texts that belong to its schema. -/
structure ArrowBatch where
  metadata : List (String × String)
  rows : Nat
  columns : List ArrowColumn

namespace ArrowBatch

/-- A batch of a schema without rows. -/
def empty (schema : ArrowSchema) : ArrowBatch :=
  ⟨schema.metadata, 0, schema.fields.map fun field => ⟨field, []⟩⟩

/-- The rows of two batches of one schema, one after the other. -/
def append (first second : ArrowBatch) : ArrowBatch where
  metadata := first.metadata
  rows := first.rows + second.rows
  columns := List.zipWith ArrowColumn.append first.columns second.columns

/-- The rows of all batches of a schema. -/
def concat (schema : ArrowSchema) (batches : List ArrowBatch) : ArrowBatch :=
  batches.foldl append (empty schema)

end ArrowBatch

end Columnar
