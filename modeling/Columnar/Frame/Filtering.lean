import Columnar.Frame
import Columnar.InPlace

/-! Frames filtered row by row. A predicate is asked about the cells of one field in their order; what it
answers, and whether it refuses, may depend on what it has been asked before. The rows it holds for are
appended to a frame without rows, cell by cell, and each column checks what it is given. -/
namespace Columnar.Frame

open InPlace (check)

variable {σ : Type}

/-- The cells of a row of some fields appended to others, field by field, as far as both go. -/
def appendCells (row : Nat) : List Field → List Field → Except Error (List Field)
  | target :: targets, source :: sources => do
    let value ← source.column.get row
    let column ← target.column.push value
    let rest ← appendCells row targets sources
    return target.withColumn column :: rest
  | targets, _ => .ok targets

/-- So many rows from one on, those that the predicate holds for appended to what is kept. -/
def filterFrom (ask : Value → InPlace σ Bool) (source : Column) (fields : List Field) :
    Nat → Nat → List Field → InPlace σ (List Field)
  | _, 0, kept => pure kept
  | row, count + 1, kept => do
    let value ← check (source.get row)
    let holds ← ask value
    let kept ← check (if holds then appendCells row kept fields else .ok kept)
    filterFrom ask source fields (row + 1) count kept

/-- The frame with the rows for which a predicate holds on one field. -/
def filterAsking (frame : Frame) (index : Nat) (ask : Value → InPlace σ Bool) :
    InPlace σ Frame := do
  let count ← check frame.rowCount
  let source ← check (frame.field index)
  let fields ← filterFrom ask source.column frame.fields 0 count frame.emptyCopy.fields
  return { frame.emptyCopy with fields }

end Columnar.Frame
