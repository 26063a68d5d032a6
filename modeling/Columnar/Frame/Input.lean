import Columnar.Conversion
import Columnar.Frame

/-! Frames filled cell by cell from loosely typed values. There is one field for every conversion,
of the type of its results and with a number of rows that never changes. -/
namespace Columnar

/-- A frame under construction, with the conversion that belongs to each field. -/
structure FrameInput where
  conversions : List Conversion
  frame : Frame

namespace FrameInput

/-- A frame of cells that are not written yet. -/
def start (conversions : List Conversion) (rows : Nat) : FrameInput where
  conversions := conversions
  frame := { fields := conversions.map fun conversion => Field.zeros "" conversion.output rows }

/-- An error of a conversion, with the cell named. -/
def inCell (field row : Nat) : Error → Error
  | .conversion fault => .conversion (.inCell field row fault)
  | other => other.atField field

/-- A value stored as it is. -/
def setRaw (input : FrameInput) (field row : Nat) (value : Value) : Except Error FrameInput :=
  (input.frame.set field row value).map fun frame => { input with frame }

/-- A value converted and stored. -/
def set (input : FrameInput) (field row : Nat) (value : Value) : Except Error FrameInput :=
  match input.conversions[field]? with
  | none => .error (.indexOutOfRange field input.conversions.length)
  | some conversion =>
    match conversion.convert value with
    | .error error => .error (inCell field row error)
    | .ok value => input.setRaw field row value

/-- One name for every field, in their order. -/
def setNames (input : FrameInput) (names : List String) : Except Error FrameInput :=
  let fields := input.frame.fields
  if names.length ≠ fields.length then .error (.fieldCount fields.length names.length)
  else
    let fields := List.zipWith (fun (field : Field) name => { field with name }) fields names
    .ok { input with frame := { input.frame with fields } }

def setLabels (input : FrameInput) (index : Nat) (labels : Labels) : Except Error FrameInput := do
  let field ← input.frame.field index
  return { input with frame := input.frame.withFieldAt index { field with labels } }

end FrameInput

end Columnar
