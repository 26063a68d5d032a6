import Columnar.Pivot.Times

/-! From columns to rows. A wide frame has one column for every series, told apart by name and
labels; the long frame made from it has a row for every time and label set, one value column for
every name and one text column for every label key. -/
namespace Columnar

/-- The first field that belongs to the same series as a field before it. -/
def Field.firstRepeated? (seen : List Field) : List Field → Option Field
  | [] => none
  | field :: rest =>
    if seen.any (·.sameSeries field) then some field else firstRepeated? (field :: seen) rest

/-- The value fields of a wide frame, arranged by name and label set. -/
structure SeriesGrid where
  fields : List Field
  names : List String
  labelSets : List Labels
  keys : List String

namespace SeriesGrid

/-- Names and label sets are taken in the order in which they are first met, keys in their own
order. -/
def ofFields (fields : List Field) : SeriesGrid where
  fields := fields
  names := (fields.map Field.name).eraseDups
  labelSets := (fields.map Field.labels).eraseDups
  keys := (fields.foldl (fun labels field => labels.extend field.labels) Labels.empty).keys

/-- The field of a name and a label set. -/
def field? (grid : SeriesGrid) (name : String) (labels : Labels) : Option Field :=
  grid.fields.find? fun field => field.name == name && field.labels == labels

/-- The common kind of the fields of one name; the first one that differs is an error. -/
def agreeOnKind (name : String) (kind : Kind) : List Field → Except Error Unit
  | [] => .ok ()
  | field :: rest =>
    if field.type.kind = kind then agreeOnKind name kind rest
    else .error (.pivot (.differentTypes name ⟨kind, false⟩ field.type))

/-- The type of the column of a name: it allows nulls if one of its fields does, or if some label
set has no such field. -/
def columnType (grid : SeriesGrid) (name : String) : Except Error FieldType :=
  let fields := grid.labelSets.map (grid.field? name)
  match fields.filterMap id with
  | [] => .error (.pivot (.noSource name))
  | first :: rest => do
    agreeOnKind name first.type.kind rest
    let nullable := fields.any fun field => (field.map (·.type.nullable)).getD true
    return ⟨first.type.kind, nullable⟩

/-- The values of the column of a name: for each of the given rows one per label set. -/
def columnValues (grid : SeriesGrid) (rows : List Nat) (name : String) : List Value :=
  let columns := grid.labelSets.map fun labels => (grid.field? name labels).map Field.column
  rows.flatMap fun row => columns.map fun column => (column.bind (·.get? row)).getD .null

/-- The texts of the column of a label key: for each row one per label set. -/
def labelTexts (grid : SeriesGrid) (rows : Nat) (key : String) : List String :=
  (List.replicate rows (grid.labelSets.map fun labels => (labels.get? key).getD "")).flatten

end SeriesGrid

/-- The rows of a list of times, each with its time, in ascending order; equal times keep their
order. -/
def rowsByTime (times : List Instant) : List (Instant × Nat) :=
  times.zipIdx.mergeSort fun a b => a.1.atMost b.1

/-- The long frame of a wide one. -/
def Frame.wideToLong (frame : Frame) : Except Error Frame := do
  let roles := frame.seriesRoles
  if roles.kind ≠ .wide then .error (.pivot (.notWide roles.kind))
  else
    let timeField ← frame.timeField roles
    let rows ← frame.rowCount
    let times ← timeField.times
    let valueFields := frame.fieldsAt roles.values
    match Field.firstRepeated? [] valueFields with
    | some field => .error (.duplicateField (field.name ++ " " ++ field.labels.text))
    | none =>
      let grid := SeriesGrid.ofFields valueFields
      let types ← grid.names.mapM grid.columnType
      let order := rowsByTime times
      let timeCells := order.flatMap fun (time, _) => grid.labelSets.map fun _ => Cell.of time
      let valueColumns ← (grid.names.zip types).mapM fun (name, type) => do
        let column ← Column.ofValues type (grid.columnValues (order.map (·.2)) name)
        return { name, labels := Labels.empty, config := none, column : Field }
      let labelColumns := grid.keys.map fun key =>
        { name := key
          labels := Labels.empty
          config := none
          column := ⟨⟨.string, false⟩, ⟨(grid.labelTexts rows key).map Cell.of⟩⟩ : Field }
      return { name := frame.name
               refId := frame.refId
               fields := timeField.withColumn ⟨⟨.time, false⟩, ⟨timeCells⟩⟩
                 :: valueColumns ++ labelColumns
               info := some (frame.infoWithShape .timeSeriesLong) }

end Columnar
