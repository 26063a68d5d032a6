import Columnar.TimeSeries

/-! What both layouts of time series need: the times of a frame, which may not be null, and the
shape that the result declares. -/
namespace Columnar

namespace Field

/-- The times of cells from a position on; the first one that is no time is named by its row. -/
def timesFrom (field : Field) : Nat → List Value → Except Error (List Instant)
  | _, [] => .ok []
  | row, .of .time t :: rest => (field.timesFrom (row + 1) rest).map (t :: ·)
  | row, _ :: _ => .error (.pivot (.nullTime field.name row))

/-- The times of a field, none of which may be null. -/
def times (field : Field) : Except Error (List Instant) := field.timesFrom 0 field.column.values

end Field

namespace Frame

/-- The field that tells the time. -/
def timeField (frame : Frame) (roles : SeriesRoles) : Except Error Field :=
  match roles.time with
  | some position => frame.field position
  | none => .error (.pivot .noTime)

/-- The fields at the given positions, in their order. -/
def fieldsAt (frame : Frame) (positions : List Nat) : List Field :=
  positions.filterMap (frame.fields[·]?)

/-- The metadata with another declared shape; a frame without metadata gets some. -/
def infoWithShape (frame : Frame) (shape : FrameShape) : FrameMeta :=
  { frame.info.getD {} with shape := some shape }

end Frame

end Columnar
