import Columnar.Frame

/-! Frames as time series. One field tells the time, texts tell series apart and numbers or truth
values are observed; a frame with any other field is no time series. -/
namespace Columnar

/-- What the fields of a frame are for, as positions. -/
structure SeriesRoles where
  kind : SeriesKind := .not
  time : Option Nat := none
  timeNullable : Bool := false
  factors : List Nat := []
  values : List Nat := []
deriving DecidableEq, Repr

namespace SeriesRoles

/-- The roles given to the fields one after the other, and whether every field has one. The first
field that has none ends the count. -/
def assign (roles : SeriesRoles) : List (FieldType × Nat) → SeriesRoles × Bool
  | [] => (roles, true)
  | (type, position) :: rest =>
    if type.kind = .time ∧ roles.time.isNone then
      assign { roles with time := some position, timeNullable := type.nullable } rest
    else if type.kind = .string then
      assign { roles with factors := roles.factors ++ [position] } rest
    else if type.kind.isNumeric ∨ type.kind = .bool then
      assign { roles with values := roles.values ++ [position] } rest
    else (roles, false)

/-- The roles of fields of the given types. Without texts the layout is wide, with them long. -/
def ofTypes (types : List FieldType) : SeriesRoles :=
  let (roles, complete) := assign {} types.zipIdx
  if !complete || roles.time.isNone || roles.values.isEmpty then roles
  else { roles with kind := if roles.factors.isEmpty then .wide else .long }

end SeriesRoles

/-- The roles of a frame's fields. -/
def Frame.seriesRoles (frame : Frame) : SeriesRoles := SeriesRoles.ofTypes frame.types

end Columnar
