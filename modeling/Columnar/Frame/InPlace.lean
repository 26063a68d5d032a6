import Columnar.Frame
import Columnar.InPlace

/-! Frames of which a cell or the fields are changed where they stand. -/
namespace Columnar.Frame

open InPlace (check state)

/-- The fields from a position on changed one after the other, each by the item that belongs to it, as
far as there are fields. -/
def changeEach {α : Type} (change : Field → α → Field) : Nat → List α → InPlace Frame Unit
  | _, [] => pure ()
  | position, item :: rest => do
    modify fun frame =>
      { frame with fields := frame.fields.modify position fun field => change field item }
    changeEach change (position + 1) rest

/-- A field put in the place of the one at an index. -/
def putField (index : Nat) (field : Field) : InPlace Frame Unit :=
  modify fun frame => frame.withFieldAt index field

/-- One cell overwritten. -/
def storeCell (index row : Nat) (value : Value) : InPlace Frame Unit := do
  let frame ← state
  let field ← check (frame.field index)
  let column ← check ((field.column.set row value).mapError (·.atField index))
  putField index (field.withColumn column)

end Columnar.Frame
