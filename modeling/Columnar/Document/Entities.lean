import Columnar.Column
import Columnar.Json.Record

/-! Floats that JSON numbers cannot express. In a document they are nulls, and the rows at which they
stand are listed beside the column, one list for each of the three. -/
namespace Columnar

/-- A float that is no finite number. -/
inductive SpecialFloat where
  | nan
  | infinity
  | negInfinity
deriving DecidableEq, Repr

namespace SpecialFloat

def ofClass? : FloatClass → Option SpecialFloat
  | .nan => some nan
  | .infinite false => some infinity
  | .infinite true => some negInfinity
  | .finite .. => none

/-- The special float as an element of a kind, if the kind has it. -/
def element? : SpecialFloat → (kind : Kind) → Option kind.Element
  | nan, .float64 => some Binary64.nan
  | infinity, .float64 => some Binary64.infinity
  | negInfinity, .float64 => some Binary64.negInfinity
  | nan, .float32 => some Binary32.nan
  | infinity, .float32 => some Binary32.infinity
  | negInfinity, .float32 => some Binary32.negInfinity
  | _, _ => none

end SpecialFloat

/-- The special float that an element is, if it is one. -/
def Kind.special? : (kind : Kind) → kind.Element → Option SpecialFloat
  | .float32, x => SpecialFloat.ofClass? (Binary32.classify x)
  | .float64, x => SpecialFloat.ofClass? (Binary64.classify x)
  | _, _ => none

/-- The rows of a column at which special floats stand. -/
structure Entities where
  nan : List Nat := []
  infinity : List Nat := []
  negInfinity : List Nat := []
deriving DecidableEq, Repr

namespace Entities

def isEmpty (entities : Entities) : Bool :=
  entities.nan.isEmpty && entities.infinity.isEmpty && entities.negInfinity.isEmpty

/-- The rows of cells, counted from a position, that hold a special float. -/
def rowsOf {type : FieldType} (special : SpecialFloat) : Nat → List (Cell type) → List Nat
  | _, [] => []
  | row, cell :: rest =>
    if cell.content.bind type.kind.special? = some special then
      row :: rowsOf special (row + 1) rest
    else rowsOf special (row + 1) rest

def ofCells {type : FieldType} (cells : Cells type) : Entities where
  nan := rowsOf .nan 0 cells.toList
  infinity := rowsOf .infinity 0 cells.toList
  negInfinity := rowsOf .negInfinity 0 cells.toList

/-- The lists that are not empty, under their names. -/
def toJson (entities : Entities) : Json :=
  let rows (key : String) (rows : List Nat) :=
    if rows.isEmpty then [] else [(key, Json.list (rows.map Json.ofNat))]
  .object (rows "NaN" entities.nan ++ rows "Inf" entities.infinity
    ++ rows "NegInf" entities.negInfinity)

open DraftReader in
def read (origin : DraftOrigin) : DraftReader Entities :=
  record origin "FieldEntities"
    [defaulted ["NaN"] (listOf (natural 64 "usize")) fun v r => { r with nan := v },
     defaulted ["Inf"] (listOf (natural 64 "usize")) fun v r => { r with infinity := v },
     defaulted ["NegInf"] (listOf (natural 64 "usize")) fun v r => { r with negInfinity := v }]
    {}

end Entities

end Columnar
