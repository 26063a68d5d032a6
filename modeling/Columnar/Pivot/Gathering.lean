import Columnar.Pivot.Long

/-! A wide frame made long row by row. The value fields are numbered by label set and name, the types
of the new columns are decided, and then every row, in the order of time, is appended once for each label
set to all columns. -/
namespace Columnar

/-- The position of an item, which is added at the end unless it is there. -/
def positionOf {α : Type} [BEq α] (items : List α) (item : α) : Nat × List α :=
  match items.findIdx? (· == item) with
  | some position => (position, items)
  | none => (items.length, items ++ [item])

/-- Value fields by the positions of their label set and name, and all label keys; the keys are those
of labels, which are kept in order. -/
structure NumberedSeries where
  names : List String := []
  labelSets : List Labels := []
  keys : Labels := Labels.empty
  fields : List ((Nat × Nat) × Field) := []

namespace NumberedSeries

/-- The field of a label set and a name, by their positions. -/
def field? (series : NumberedSeries) (set name : Nat) : Option Field :=
  series.fields.lookup (set, name)

/-- One field more. A field whose place is taken comes twice. -/
def add (series : NumberedSeries) (field : Field) : Except Error NumberedSeries :=
  let (name, names) := positionOf series.names field.name
  let (set, labelSets) := positionOf series.labelSets field.labels
  match series.field? set name with
  | some _ => .error (.duplicateField (field.name ++ " " ++ field.labels.text))
  | none => .ok
      { names
        labelSets
        keys := series.keys.extend field.labels
        fields := ((set, name), field) :: series.fields }

/-- The type of the column of a name, from a label set on: the kind that is known so far and whether
nulls are needed. -/
def decideType (series : NumberedSeries) (position : Nat) (name : String) :
    Nat → Nat → Option Kind → Bool → Except Error FieldType
  | _, 0, none, _ => .error (.pivot (.noSource name))
  | _, 0, some kind, nullable => .ok ⟨kind, nullable⟩
  | set, count + 1, known, nullable =>
    match series.field? set position with
    | none => decideType series position name (set + 1) count known true
    | some field =>
      match known with
      | none =>
        decideType series position name (set + 1) count (some field.type.kind)
          (nullable || field.type.nullable)
      | some kind =>
        if kind ≠ field.type.kind then
          .error (.pivot (.differentTypes name ⟨kind, false⟩ field.type))
        else
          decideType series position name (set + 1) count (some kind)
            (nullable || field.type.nullable)

/-- The types of the columns of the names from one on. -/
def decideTypes (series : NumberedSeries) : Nat → List String → Except Error (List FieldType)
  | _, [] => .ok []
  | position, name :: rest => do
    let type ← series.decideType position name 0 series.labelSets.length none false
    let types ← series.decideTypes (position + 1) rest
    return type :: types

/-- The value of a row for a label set and a name; where there is no field, it is null. -/
def read (series : NumberedSeries) (set row name : Nat) : Except Error Value :=
  match series.field? set name with
  | some field => field.column.get row
  | none => .ok .null

end NumberedSeries

/-- What has been appended so far. -/
structure LongRows where
  times : List Instant
  values : List Column
  texts : List (List String)

namespace LongRows

/-- The values of a row and a label set appended to the columns of the names from one on. -/
def appendValues (series : NumberedSeries) (set row : Nat) :
    Nat → List Column → Except Error (List Column)
  | _, [] => .ok []
  | name, column :: rest => do
    let value ← series.read set row name
    let column ← column.push value
    let rest ← appendValues series set row (name + 1) rest
    return column :: rest

/-- A row appended for the label sets from one on. -/
def appendSets (series : NumberedSeries) (time : Instant) (row : Nat) :
    Nat → List Labels → LongRows → Except Error LongRows
  | _, [], rows => .ok rows
  | set, labels :: rest, rows => do
    let values ← appendValues series set row 0 rows.values
    appendSets series time row (set + 1) rest
      { times := rows.times ++ [time]
        values
        texts := List.zipWith (fun key texts => texts ++ [(labels.get? key).getD ""])
          series.keys.keys rows.texts }

/-- The rows appended in their order. -/
def appendRows (series : NumberedSeries) : List (Instant × Nat) → LongRows → Except Error LongRows
  | [], rows => .ok rows
  | (time, row) :: rest, rows => do
    let rows ← appendSets series time row 0 series.labelSets rows
    appendRows series rest rows

end LongRows

/-- The long frame of a wide one, made by appending its rows one after the other. -/
def Frame.gather (frame : Frame) : Except Error Frame := do
  let roles := frame.seriesRoles
  if roles.kind ≠ .wide then .error (.pivot (.notWide roles.kind))
  else
    let timeField ← frame.timeField roles
    let _ ← frame.rowCount
    let times ← timeField.times
    let series ← (frame.fieldsAt roles.values).foldlM NumberedSeries.add {}
    let types ← series.decideTypes 0 series.names
    let rows ← LongRows.appendRows series (rowsByTime times)
      { times := []
        values := types.map fun type => ⟨type, Cells.empty⟩
        texts := series.keys.keys.map fun _ => [] }
    let unlabelled := fun name column => { name, labels := Labels.empty, config := none, column : Field }
    return { name := frame.name
             refId := frame.refId
             fields := timeField.withColumn ⟨⟨.time, false⟩, ⟨rows.times.map Cell.of⟩⟩
               :: (List.zipWith unlabelled series.names rows.values ++
                 List.zipWith (fun key texts => unlabelled key ⟨⟨.string, false⟩, ⟨texts.map Cell.of⟩⟩)
                   series.keys.keys rows.texts)
             info := some (frame.infoWithShape .timeSeriesLong) }

end Columnar
