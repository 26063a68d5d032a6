import Columnar.Column

/-! What stands in the cells for which there was no row. Without a choice such a cell is one that
was never written; else it holds nothing, a fixed number, or what stands before it. -/
namespace Columnar

/-- What to put where a series has no row for a time. -/
inductive Fill where
  | null
  | value (number : Binary64)
  | previous
deriving DecidableEq, Repr

namespace Kind

/-- A number as an element of a kind: integers take its integer part and stay within their range,
and every number but zero is true. Texts, times, documents and indexes have no such element. -/
def ofNumber? (x : Binary64) : (kind : Kind) → Option kind.Element
  | int8 => some (Int8.ofInt (x.truncateWithin (-0x80) 0x7F))
  | int16 => some (Int16.ofInt (x.truncateWithin (-0x8000) 0x7FFF))
  | int32 => some (Int32.ofInt (x.truncateWithin (-0x80000000) 0x7FFFFFFF))
  | int64 => some (Int64.ofInt (x.truncateWithin (-0x8000000000000000) 0x7FFFFFFFFFFFFFFF))
  | uint8 => some (UInt8.ofNat (x.truncateWithin 0 0xFF).toNat)
  | uint16 => some (UInt16.ofNat (x.truncateWithin 0 0xFFFF).toNat)
  | uint32 => some (UInt32.ofNat (x.truncateWithin 0 0xFFFFFFFF).toNat)
  | uint64 => some (UInt64.ofNat (x.truncateWithin 0 0xFFFFFFFFFFFFFFFF).toNat)
  | float32 => some (Binary32.ofBinary64 x)
  | float64 => some x
  | bool => some (!x.isZero)
  | _ => none

end Kind

namespace Fill

/-- The type of a column after filling: only the fill with nulls needs to allow them. -/
def columnType (fill : Option Fill) (type : FieldType) : FieldType :=
  match fill with
  | some .null => type.allowingNull
  | _ => type

/-- The cell put where there is none, unless it depends on the cell before. -/
def cell (fill : Option Fill) (type : FieldType) : Except Error (Cell type) :=
  match fill with
  | some (.value x) =>
    match Kind.ofNumber? x type.kind with
    | some element => .ok (Cell.of element)
    | none => .error (.pivot (.notFillable type.kind))
  | _ => .ok (Cell.zero type)

/-- The cells in order, where each absent one repeats the one before it. -/
def repeating {type : FieldType} (before : Cell type) : List (Option (Cell type)) → List (Cell type)
  | [] => []
  | content :: rest => content.getD before :: repeating (content.getD before) rest

/-- The cells of a column of which some are absent. An absent cell at the beginning has none before
it to repeat. -/
def complete {type : FieldType} (fill : Option Fill) (cells : List (Option (Cell type))) :
    Except Error (Cells type) := do
  let absent ← Fill.cell fill type
  match fill with
  | some .previous => return ⟨repeating absent cells⟩
  | _ => return ⟨cells.map (·.getD absent)⟩

end Fill

end Columnar
