import Columnar.Frame.Rows

/-! Frames that are changed where they stand, row by row. The columns change one after the other;
if one of them refused, those before it would stay changed, so that the frame after a refused call
is as much an outcome as the error. -/
namespace Columnar

/-- A call that changes the rows of a frame or reads one of them. -/
inductive RowCall where
  | append (row : List Value)
  | insert (index : Nat) (row : List Value)
  | set (index : Nat) (row : List Value)
  | erase (index : Nat)
  | extend (count : UInt64)
  | copy (index : Nat)

/-- What a call answers. -/
inductive RowAnswer where
  | done
  | row (values : List Value)
  | refused (error : Error)

namespace Frame

/-- The columns changed where they stand, each by the value that belongs to it, up to the first one
that refuses. -/
def changeInPlace (change : Column → Value → Except Error Column) :
    Nat → List Field → List Value → List Field × RowAnswer
  | position, field :: fields, value :: values =>
    match change field.column value with
    | .error error => (field :: fields, .refused (error.atField position))
    | .ok column =>
      let (fields, answer) := changeInPlace change (position + 1) fields values
      (field.withColumn column :: fields, answer)
  | _, fields, _ => (fields, .done)

/-- The columns without their cell at an index, up to the first one that has no such cell. -/
def eraseInPlace (index : Nat) : List Field → List Field × RowAnswer
  | [] => ([], .done)
  | field :: fields =>
    match field.column.erase index with
    | .error error => (field :: fields, .refused error)
    | .ok (_, column) =>
      let (fields, answer) := eraseInPlace index fields
      (field.withColumn column :: fields, answer)

/-- A row that is checked as a whole before any column changes. -/
def storeInPlace (frame : Frame) (row : List Value)
    (change : Column → Value → Except Error Column) : Frame × RowAnswer :=
  match frame.checkRow row with
  | .error error => (frame, .refused error)
  | .ok () =>
    let (fields, answer) := changeInPlace change 0 frame.fields row
    ({ frame with fields }, answer)

/-- A call that needs rows, the index below a bound that depends on their number. -/
def performAt (frame : Frame) (index : Nat) (bound : Nat → Nat) (run : Frame × RowAnswer) :
    Frame × RowAnswer :=
  match frame.rowCount with
  | .error error => (frame, .refused error)
  | .ok count =>
    if bound count ≤ index then (frame, .refused (.indexOutOfRange index count)) else run

/-- The frame after a call, and the answer. -/
def perform (frame : Frame) : RowCall → Frame × RowAnswer
  | .append row => frame.storeInPlace row Column.push
  | .insert index row =>
    frame.performAt index (· + 1) <|
      frame.storeInPlace row fun column value => column.insert index value
  | .set index row =>
    frame.performAt index id <| frame.storeInPlace row fun column value => column.set index value
  | .erase index =>
    frame.performAt index id <|
      let (fields, answer) := eraseInPlace index frame.fields
      ({ frame with fields }, answer)
  | .extend count => (frame.extend count, .done)
  | .copy index =>
    match frame.row index with
    | .ok values => (frame, .row values)
    | .error error => (frame, .refused error)

/-- The frame after calls, one after the other. -/
def performAll (frame : Frame) (calls : List RowCall) : Frame :=
  calls.foldl (fun frame call => (frame.perform call).1) frame

end Frame

end Columnar
