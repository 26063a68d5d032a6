import Columnar.Pivot.Wide

/-! A long frame made wide cell by cell. Every row is given a slot of time and the number of its
combination of texts; columns that nothing is written to yet are laid out by these numbers, the cells
of the rows are written to them one after the other, and marks remember which cells have been written.
The fill then goes over the cells without a mark. -/
namespace Columnar

/-- The position of an instant among ascending ones, looked for from a lower bound up to an upper one
by halving what is between them. -/
def Instant.search (slots : List Instant) (time : Instant) (low high : Nat) : Option Nat :=
  if low < high then
    match slots[(low + high) / 2]? with
    | none => none
    | some slot =>
      if slot = time then some ((low + high) / 2)
      else if slot.before time then search slots time ((low + high) / 2 + 1) high
      else search slots time low ((low + high) / 2)
  else none
termination_by high - low

/-- The combinations of factor texts that have been met, and the number of each of them. -/
structure Combinations where
  inOrder : List (List String) := []
  numbers : List (List String × Nat) := []

/-- The number of a combination; one that has not been met is given the next one. -/
def Combinations.number (met : Combinations) (texts : List String) : Nat × Combinations :=
  match met.numbers.lookup texts with
  | some number => (number, met)
  | none =>
    (met.inOrder.length,
      { inOrder := met.inOrder ++ [texts]
        numbers := (texts, met.inOrder.length) :: met.numbers })

/-- Where the cells of a row belong. -/
structure RowPlace where
  slot : Nat
  combination : Nat

/-- The places of the rows from one on, and the combinations met up to the last of them. -/
def placeRows (factors : List Field) (slots : List Instant) :
    Nat → List Instant → Combinations → Except Error (List RowPlace × Combinations)
  | _, [], met => .ok ([], met)
  | row, time :: rest, met => do
    let texts ← factors.mapM fun field => (field.column.get row).map Value.text
    let (combination, met) := met.number texts
    match Instant.search slots time 0 slots.length with
    | none => .error (.pivot (.noSlot row))
    | some slot =>
      let (places, met) ← placeRows factors slots (row + 1) rest met
      return (⟨slot, combination⟩ :: places, met)

/-- The column of one series before anything is written to it. -/
def Field.blankSeries (fill : Option Fill) (slots : Nat) (factorNames factors : List String)
    (source : Field) : Field where
  name := source.name
  labels := source.labels.withFactors factorNames factors
  config := source.config
  column := Column.zeros (Fill.columnType fill source.type) slots

/-- The fields with the column of one of them changed. -/
def changeAt (change : Column → Except Error Column) (fields : List Field) (index : Nat) :
    Except Error (List Field) :=
  match fields[index]? with
  | none => .error (.indexOutOfRange index fields.length)
  | some field => do
    let column ← change field.column
    return fields.set index (field.withColumn column)

/-- The values of a row written to a slot: that of each source to its column, from an index on. -/
def storeValues (row slot : Nat) : Nat → List Field → List Field → Except Error (List Field)
  | _, [], fields => .ok fields
  | index, source :: rest, fields => do
    let value ← source.column.get row
    let fields ← changeAt (·.set slot value) fields index
    storeValues row slot (index + 1) rest fields

/-- For every combination, which of its slots have been written to. -/
abbrev Marks := List (List Bool)

namespace Marks

def get (marks : Marks) (place : RowPlace) : Except Error Bool :=
  match marks[place.combination]? with
  | none => .error (.indexOutOfRange place.combination marks.length)
  | some slots =>
    match slots[place.slot]? with
    | none => .error (.indexOutOfRange place.slot slots.length)
    | some written => .ok written

def put (marks : Marks) (place : RowPlace) : Marks :=
  marks.modify place.combination fun slots => slots.set place.slot true

end Marks

/-- The rows from one on written to their places. A place that has been written to already is that of
a row with the same time and texts. -/
def storeRows (slots : List Instant) (combinations : List (List String)) (sources : List Field) :
    Nat → List RowPlace → Marks → List Field → Except Error (Marks × List Field)
  | _, [], marks, fields => .ok (marks, fields)
  | row, place :: rest, marks, fields => do
    if ← marks.get place then
      .error (.pivot (.duplicateRow row (slots.getD place.slot Instant.epoch)
        (combinations.getD place.combination [])))
    else
      let fields ← storeValues row place.slot (1 + place.combination * sources.length) sources fields
      storeRows slots combinations sources (row + 1) rest (marks.put place) fields

namespace Fill

/-- A number as a value of a type. -/
def valueOf (type : FieldType) (x : Binary64) : Except Error Value :=
  match Kind.ofNumber? x type.kind with
  | some element => .ok (.of type.kind element)
  | none => .error (.pivot (.notFillable type.kind))

/-- What is put into a slot that was not written to: nothing, the fixed value, or the value in the
slot before, filled or not. -/
def fillSlot (fill : Fill) (fixed : Option Value) (slot : Nat) (column : Column) :
    Except Error Column :=
  match fill with
  | .null => .ok column
  | .value _ =>
    match fixed with
    | some number => column.set slot number
    | none => .ok column
  | .previous =>
    if slot = 0 then .ok column
    else do
      let before ← column.get (slot - 1)
      column.set slot before

/-- The slots from one on, filled where they have no mark. -/
def fillSlots (fill : Fill) (fixed : Option Value) : Nat → List Bool → Column → Except Error Column
  | _, [], column => .ok column
  | slot, written :: rest, column =>
    if written then fillSlots fill fixed (slot + 1) rest column
    else do
      let column ← fillSlot fill fixed slot column
      fillSlots fill fixed (slot + 1) rest column

/-- A column of one combination filled. A fixed number is made a value of its type first, also when
no slot needs it. -/
def fillColumn (fill : Fill) (written : List Bool) (column : Column) : Except Error Column := do
  let fixed ← match fill with
    | .value x => (valueOf column.type x).map some
    | .null | .previous => .ok none
  fillSlots fill fixed 0 written column

/-- So many columns of one combination, from an index on, filled. -/
def fillBlock (fill : Fill) (written : List Bool) :
    Nat → Nat → List Field → Except Error (List Field)
  | _, 0, fields => .ok fields
  | index, count + 1, fields => do
    let fields ← changeAt (fillColumn fill written) fields index
    fillBlock fill written (index + 1) count fields

/-- The columns of the combinations from one on filled, each combination with its own marks. -/
def fillAll (fill : Fill) (width : Nat) : Nat → Marks → List Field → Except Error (List Field)
  | _, [], fields => .ok fields
  | combination, written :: rest, fields => do
    let fields ← fillBlock fill written (1 + combination * width) width fields
    fillAll fill width (combination + 1) rest fields

end Fill

/-- The fields of a wide frame: the rows are placed and written, and the fill goes over the cells that
are left. -/
def scatterFields (fill : Option Fill) (timeField : Field) (times : List Instant)
    (factors sources : List Field) : Except Error (List Field) := do
  let slots := Instant.distinct times
  let (places, met) ← placeRows factors slots 0 times {}
  let blank := met.inOrder.flatMap fun texts =>
    sources.map (Field.blankSeries fill slots.length (factors.map Field.name) texts)
  let unwritten := List.replicate met.inOrder.length (List.replicate slots.length false)
  let (marks, fields) ←
    storeRows slots met.inOrder sources 0 places unwritten (timeField.ofSlots slots :: blank)
  match fill with
  | none => return fields
  | some fill => fill.fillAll sources.length 0 marks fields

/-- The wide frame of a long one, made by writing its cells one after the other. -/
def Frame.scatter (frame : Frame) (fill : Option Fill) : Except Error Frame := do
  let roles := frame.seriesRoles
  if roles.kind ≠ .long then .error (.pivot (.notLong roles.kind))
  else
    let timeField ← frame.timeField roles
    let rows ← frame.rowCount
    if rows = 0 then .error (.pivot (.noRows frame.name))
    else
      let times ← timeField.times
      let fields ← scatterFields fill timeField times (frame.fieldsAt roles.factors)
        (frame.fieldsAt roles.values)
      return { name := frame.name
               refId := frame.refId
               fields
               info := some (frame.infoWithShape .timeSeriesWide) }

end Columnar
