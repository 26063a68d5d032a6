import Columnar.Column

/-! Columns that are changed where they stand, by values. A call checks its index, makes a cell of its
value and hands the cell to the typed cells. Those take an index out of range as a fault of their caller
and stop, so that a fault is an outcome here too. -/
namespace Columnar

/-- A call that changes a column, or takes an empty copy of it. -/
inductive CellCall where
  | set (index : Nat) (value : Value)
  | push (value : Value)
  | insert (index : Nat) (value : Value)
  | erase (index : Nat)
  | extend (count : UInt64)
  | emptyCopy

/-- What a call answers. -/
inductive CellAnswer where
  | done
  | value (value : Value)
  | copy (column : Column)
  | refused (error : Error)
  | broken (fault : CellFault)

namespace Column

/-- A call with an index, which must be below a bound. -/
def performAt (column : Column) (index bound : Nat) (run : Column × CellAnswer) :
    Column × CellAnswer :=
  match checkIndex index bound with
  | .error error => (column, .refused error)
  | .ok () => run

/-- A value made into a cell, and the cell put among the typed cells. -/
def storeInPlace (column : Column) (value : Value)
    (put : Cell column.type → Except CellFault (Cells column.type)) : Column × CellAnswer :=
  match Cell.ofValue column.type value with
  | .error error => (column, .refused error)
  | .ok cell =>
    match put cell with
    | .error fault => (column, .broken fault)
    | .ok cells => (⟨column.type, cells⟩, .done)

/-- The column after a call, and the answer. -/
def perform (column : Column) : CellCall → Column × CellAnswer
  | .set index value =>
    column.performAt index column.size <|
      column.storeInPlace value fun cell => column.cells.set index cell
  | .push value => column.storeInPlace value fun cell => .ok (column.cells.push cell)
  | .insert index value =>
    column.performAt index (column.size + 1) <|
      column.storeInPlace value fun cell => column.cells.insert index cell
  | .erase index =>
    column.performAt index column.size <|
      match column.cells.erase index with
      | .error fault => (column, .broken fault)
      | .ok (cell, cells) => (⟨column.type, cells⟩, .value cell.value)
  | .extend count => (column.extend count, .done)
  | .emptyCopy => (column, .copy column.emptyCopy)

/-- The column after calls, one after the other. -/
def performAll (column : Column) (calls : List CellCall) : Column :=
  calls.foldl (fun column call => (column.perform call).1) column

end Column

end Columnar
