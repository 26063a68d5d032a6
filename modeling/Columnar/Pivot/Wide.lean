import Columnar.Pivot.Fill
import Columnar.Pivot.Times

/-! From rows to columns. A long frame has a row for every observation, told apart by time and by
the texts of its factors; the wide frame made from it has one row for every time and one column for
every value field and combination of factor texts, which become labels. -/
namespace Columnar

/-- What tells one row of a long frame from another. -/
structure Observation where
  time : Instant
  factors : List String
deriving DecidableEq

namespace Observation

/-- The observations of the rows. -/
def ofColumns (times : List Instant) (factors : List Column) : List Observation :=
  List.zipWith Observation.mk times (Column.textRows times.length factors)

/-- The first row, counted from a position, that is not the first one with its time and factors. -/
def firstRepeated? (seen : List Observation) : Nat → List Observation → Option (Nat × Observation)
  | _, [] => none
  | row, observation :: rest =>
    if seen.contains observation then some (row, observation)
    else firstRepeated? (observation :: seen) (row + 1) rest

/-- The combinations of factor texts, in the order in which they are first met. -/
def series (observations : List Observation) : List (List String) :=
  (observations.map (·.factors)).eraseDups

end Observation

namespace Instant

/-- One of each run of equal instants. -/
def withoutRepeats : List Instant → List Instant
  | [] => []
  | [t] => [t]
  | t :: u :: rest =>
    if t = u then withoutRepeats (u :: rest) else t :: withoutRepeats (u :: rest)

/-- Every instant of a list once, in ascending order. -/
def distinct (times : List Instant) : List Instant := withoutRepeats (times.mergeSort atMost)

end Instant

/-- The cell of another type that holds the same; what allows nulls also takes cells that hold
something. -/
def Cell.forFill {type : FieldType} (fill : Option Fill) (cell : Cell type) :
    Cell (Fill.columnType fill type) :=
  match fill with
  | some .null => ⟨cell.content, fun required => nomatch required⟩
  | none => cell
  | some (.value _) => cell
  | some .previous => cell

/-- The cells of a column that belong to one series, one for every slot of time; absent where the
series has no row. -/
def Cells.ofSeries {type : FieldType} (slots : List Instant) (observations : List Observation)
    (factors : List String) (cells : Cells type) : List (Option (Cell type)) :=
  slots.map fun slot => (observations.zip cells.toList).lookup ⟨slot, factors⟩

/-- The labels with one label for every factor. -/
def Labels.withFactors (labels : Labels) (names texts : List String) : Labels :=
  (names.zip texts).foldl (fun labels (name, text) => labels.insert name text) labels

/-- The column of one series, under the name of the field it comes from. -/
def Field.ofSeries (fill : Option Fill) (slots : List Instant) (observations : List Observation)
    (factorNames factors : List String) (source : Field) : Except Error Field := do
  let cells := source.column.cells.ofSeries slots observations factors
  let cells ← Fill.complete fill (cells.map (·.map (Cell.forFill fill)))
  return { name := source.name
           labels := source.labels.withFactors factorNames factors
           config := source.config
           column := ⟨Fill.columnType fill source.type, cells⟩ }

/-- The time field of the result: no nulls, every time once. -/
def Field.ofSlots (source : Field) (slots : List Instant) : Field :=
  source.withColumn ⟨⟨.time, false⟩, ⟨slots.map Cell.of⟩⟩

/-- The wide frame of a long one. -/
def Frame.longToWide (frame : Frame) (fill : Option Fill) : Except Error Frame := do
  let roles := frame.seriesRoles
  if roles.kind ≠ .long then .error (.pivot (.notLong roles.kind))
  else
    let timeField ← frame.timeField roles
    let rows ← frame.rowCount
    if rows = 0 then .error (.pivot (.noRows frame.name))
    else
      let times ← timeField.times
      let factorFields := frame.fieldsAt roles.factors
      let observations := Observation.ofColumns times (factorFields.map Field.column)
      match Observation.firstRepeated? [] 0 observations with
      | some (row, observation) =>
        .error (.pivot (.duplicateRow row observation.time observation.factors))
      | none =>
        let slots := Instant.distinct times
        let sources := (Observation.series observations).flatMap fun factors =>
          (frame.fieldsAt roles.values).map fun source => (factors, source)
        let series ← sources.mapM fun (factors, source) =>
          source.ofSeries fill slots observations (factorFields.map Field.name) factors
        return { name := frame.name
                 refId := frame.refId
                 fields := timeField.ofSlots slots :: series
                 info := some (frame.infoWithShape .timeSeriesWide) }

end Columnar
