import Columnar.Frame

/-! Frames as tables. An operation on a row checks everything it needs before any field changes,
so that a row is stored as a whole or not at all. -/
namespace Columnar.Frame

/-- A row for a frame must have one value for every field, and each field must take its value. -/
def checkValues : Nat → List Field → List Value → Except Error Unit
  | position, field :: fields, value :: values =>
    match field.column.check value with
    | .ok () => checkValues (position + 1) fields values
    | .error error => .error (error.atField position)
  | _, _, _ => .ok ()

def checkRow (frame : Frame) (row : List Value) : Except Error Unit :=
  if row.length ≠ frame.fields.length then
    .error (.fieldCount frame.fields.length row.length)
  else checkValues 0 frame.fields row

/-- Every column changed by the value that belongs to it. -/
def updateColumns (change : Column → Value → Except Error Column) :
    Nat → List Field → List Value → Except Error (List Field)
  | position, field :: fields, value :: values =>
    match change field.column value with
    | .error error => .error (error.atField position)
    | .ok column =>
      (updateColumns change (position + 1) fields values).map (field.withColumn column :: ·)
  | _, fields, _ => .ok fields

/-- A checked row put into every column by the same change. -/
def storeRow (frame : Frame) (row : List Value) (change : Column → Value → Except Error Column) :
    Except Error Frame := do
  frame.checkRow row
  let fields ← updateColumns change 0 frame.fields row
  return { frame with fields }

/-- A row after the last one. The lengths of the fields are not compared. -/
def appendRow (frame : Frame) (row : List Value) : Except Error Frame :=
  frame.storeRow row Column.push

/-- A row before the given one; the number of rows appends. -/
def insertRow (frame : Frame) (index : Nat) (row : List Value) : Except Error Frame := do
  let count ← frame.rowCount
  if count < index then .error (.indexOutOfRange index count)
  else frame.storeRow row fun column value => column.insert index value

/-- A row in place of the given one. -/
def setRow (frame : Frame) (index : Nat) (row : List Value) : Except Error Frame := do
  let count ← frame.rowCount
  if count ≤ index then .error (.indexOutOfRange index count)
  else frame.storeRow row fun column value => column.set index value

/-- The fields without their cell at an index. -/
def eraseCells (index : Nat) : List Field → Except Error (List Field)
  | [] => .ok []
  | field :: rest => do
    let (_, column) ← field.column.erase index
    let rest ← eraseCells index rest
    return field.withColumn column :: rest

def eraseRow (frame : Frame) (index : Nat) : Except Error Frame := do
  let count ← frame.rowCount
  if count ≤ index then .error (.indexOutOfRange index count)
  else
    let fields ← eraseCells index frame.fields
    return { frame with fields }

/-- One value per field. The lengths of the fields are not compared. -/
def row (frame : Frame) (index : Nat) : Except Error (List Value) :=
  frame.fields.mapM fun field => field.column.get index

/-- Every field extended by so many cells that are not written yet. -/
def extend (frame : Frame) (count : UInt64) : Frame :=
  { frame with
    fields := frame.fields.map fun field => field.withColumn (field.column.extend count) }

/-- Why a row that was promised to fit was refused. -/
inductive RowFault where
  | count
  | value (error : Error)

/-- The values of a row appended one after the other until one does not fit; the ones before it
stay. -/
def pushValues : List Field → List Value → List Field × Option Error
  | field :: fields, value :: values =>
    match field.column.push value with
    | .error error => (field :: fields, some error)
    | .ok column =>
      let (fields, error) := pushValues fields values
      (field.withColumn column :: fields, error)
  | fields, _ => (fields, none)

/-- A row that the caller promises to fit, stored without a check beforehand. Where the promise is
broken, the frame is left with what had been stored by then. -/
def appendPromisedRow (frame : Frame) (row : List Value) : Frame × Option RowFault :=
  if row.length ≠ frame.fields.length then (frame, some .count)
  else
    let (fields, error) := pushValues frame.fields row
    ({ frame with fields }, error.map .value)

/-- The rows from an index on on which a predicate holds, as their indexes; the first error of the
predicate ends the search. -/
def matchingRows (predicate : Value → Except Error Bool) (column : Column) :
    Nat → Nat → Except Error (List Nat)
  | _, 0 => .ok []
  | index, count + 1 => do
    let value ← column.get index
    let holds ← predicate value
    let rest ← matchingRows predicate column (index + 1) count
    return if holds then index :: rest else rest

/-- The cells of a column at the given indexes. -/
def selectCells (column : Column) (indexes : List Nat) : Column :=
  ⟨column.type, ⟨indexes.filterMap column.cells.get?⟩⟩

/-- The frame with the rows on whose value in one field a predicate holds, without configurations,
metadata and warnings. -/
def filterRows (frame : Frame) (field : Nat) (predicate : Value → Except Error Bool) :
    Except Error Frame := do
  let count ← frame.rowCount
  let source ← frame.field field
  let rows ← matchingRows predicate source.column 0 count
  return { name := frame.name
           refId := frame.refId
           fields := frame.fields.map fun field =>
             { field.emptyCopy with column := selectCells field.column rows } }

end Columnar.Frame
