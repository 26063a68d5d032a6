import Columnar.Error
import Columnar.Value

/-! Columns: lists of cells of one type. The typed side reads and writes cells and takes an index
out of range as a fault of its caller; the other side speaks in values, checks index and type, and
leaves the column as it was whenever it refuses. Lengths are words of the machine; of the memory that
cells take there is always enough. -/
namespace Columnar

/-- A cell of a type: an element of its kind, or nothing where the type allows it. -/
structure Cell (type : FieldType) where
  content : Option type.kind.Element
  present : type.nullable = false → content.isSome = true
deriving DecidableEq

namespace Cell

variable {type : FieldType}

/-- The cell that holds an element. -/
def of (element : type.kind.Element) : Cell type := ⟨some element, fun _ => rfl⟩

/-- The cell that holds nothing. -/
def empty (allowed : type.nullable = true) : Cell type :=
  ⟨none, fun required => by simp [allowed] at required⟩

/-- The cell that new rows have: nothing where that is allowed, the zero of the kind elsewhere. -/
def zero (type : FieldType) : Cell type :=
  if allowed : type.nullable = true then empty allowed else of type.kind.zero

/-- The cell as a value. -/
def value (cell : Cell type) : Value :=
  match cell.content with
  | none => .null
  | some element => .of type.kind element

/-- The cell of a value, if the value has the kind of the type or is a null that it allows. -/
def ofValue? (type : FieldType) (value : Value) : Option (Cell type) :=
  match value with
  | .null => if allowed : type.nullable = true then some (empty allowed) else none
  | value => (value.element? type.kind).map of

/-- The cell of a value, or the reason why the type does not take it. -/
def ofValue (type : FieldType) (value : Value) : Except Error (Cell type) :=
  match ofValue? type value with
  | some cell => .ok cell
  | none =>
    if value.isNull then .error (.nullNotAllowed none type)
    else .error (.typeMismatch none type value.kindName)

/-- Equality of cells: both empty, or equal elements. -/
def same (a b : Cell type) : Bool :=
  match a.content, b.content with
  | none, none => true
  | some x, some y => type.kind.same x y
  | _, _ => false

end Cell

/-- Why an operation on typed cells cannot be carried out. -/
inductive CellFault where
  | outOfRange
  | insertOutOfRange (index length : Nat)
deriving DecidableEq, Repr

def CellFault.message : CellFault → String
  | outOfRange => "index out of range"
  | insertOutOfRange index length =>
    "insert index " ++ integerText index ++ " out of range for vector of length "
      ++ integerText length

/-- A list of cells of one type. -/
structure Cells (type : FieldType) where
  toList : List (Cell type)
deriving DecidableEq

namespace Cells

variable {type : FieldType}

def empty : Cells type := ⟨[]⟩

/-- So many cells, none of them written yet. -/
def zeros (type : FieldType) (count : Nat) : Cells type := ⟨List.replicate count (Cell.zero type)⟩

def size (cells : Cells type) : Nat := cells.toList.length

def get? (cells : Cells type) (index : Nat) : Option (Cell type) := cells.toList[index]?

def get (cells : Cells type) (index : Nat) : Except CellFault (Cell type) :=
  match cells.get? index with
  | some cell => .ok cell
  | none => .error .outOfRange

def set (cells : Cells type) (index : Nat) (cell : Cell type) : Except CellFault (Cells type) :=
  if index < cells.size then .ok ⟨cells.toList.set index cell⟩ else .error .outOfRange

def push (cells : Cells type) (cell : Cell type) : Cells type := ⟨cells.toList ++ [cell]⟩

/-- Insertion before an index; the index after the last cell appends. -/
def insert (cells : Cells type) (index : Nat) (cell : Cell type) : Except CellFault (Cells type) :=
  if index ≤ cells.size then .ok ⟨cells.toList.insertIdx index cell⟩
  else .error (.insertOutOfRange index cells.size)

/-- The cell at an index, and the cells without it. -/
def erase (cells : Cells type) (index : Nat) : Except CellFault (Cell type × Cells type) :=
  match cells.get? index with
  | some cell => .ok (cell, ⟨cells.toList.eraseIdx index⟩)
  | none => .error .outOfRange

/-- So many cells: those that are there as far as they go, and then cells that are not written yet. -/
def resize (cells : Cells type) (size : Nat) : Cells type :=
  ⟨cells.toList.take size ++ (zeros type (size - cells.size)).toList⟩

/-- The cells and so many more. The new length is a sum of words that is not checked: where no word can
hold it, it starts again at zero, and the cells behind it are gone. -/
def extend (cells : Cells type) (count : UInt64) : Cells type :=
  cells.resize (UInt64.ofNat cells.size + count).toNat

def values (cells : Cells type) : List Value := cells.toList.map Cell.value

def same (a b : Cells type) : Bool :=
  a.size == b.size && (a.toList.zip b.toList).all fun (x, y) => x.same y

end Cells

/-- The first length, counted from a position, that is not the expected one, as an error. -/
def firstUneven? : Nat → Nat → List Nat → Option Error
  | _, _, [] => none
  | expected, position, length :: rest =>
    if length = expected then firstUneven? expected (position + 1) rest
    else some (.fieldLengths expected position length)

/-- A column: cells together with their type. -/
structure Column where
  type : FieldType
  cells : Cells type
deriving DecidableEq

namespace Column

def zeros (type : FieldType) (count : Nat) : Column := ⟨type, Cells.zeros type count⟩

def size (column : Column) : Nat := column.cells.size

def values (column : Column) : List Value := column.cells.values

/-- A column of the same type without cells. -/
def emptyCopy (column : Column) : Column := ⟨column.type, Cells.empty⟩

/-- The cells, seen as cells of a given type; nothing if it is not the type of the column. -/
def typed? (column : Column) (type : FieldType) : Option (Cells type) :=
  if h : column.type = type then some (h ▸ column.cells) else none

def get? (column : Column) (index : Nat) : Option Value := (column.cells.get? index).map Cell.value

/-- The value at an index; an empty cell is null. -/
def get (column : Column) (index : Nat) : Except Error Value :=
  match column.get? index with
  | some value => .ok value
  | none => .error (.indexOutOfRange index column.size)

/-- The value at an index, or nothing where it is null. -/
def present (column : Column) (index : Nat) : Except Error (Option Value) := do
  let value ← column.get index
  return if value.isNull then none else some value

/-- Whether the column takes a value, without storing it: a null needs a type that allows it, and
any other value a type of its kind. -/
def check (column : Column) (value : Value) : Except Error Unit :=
  match value.fieldType? with
  | none =>
    if column.type.nullable then .ok () else .error (.nullNotAllowed none column.type)
  | some actual =>
    if actual = column.type.withoutNull then .ok ()
    else .error (.typeMismatch none column.type actual.name)

/-- An index must be below a length. -/
def checkIndex (index length : Nat) : Except Error Unit :=
  if index < length then .ok () else .error (.indexOutOfRange index length)

def set (column : Column) (index : Nat) (value : Value) : Except Error Column := do
  checkIndex index column.size
  let cell ← Cell.ofValue column.type value
  return ⟨column.type, ⟨column.cells.toList.set index cell⟩⟩

def push (column : Column) (value : Value) : Except Error Column := do
  let cell ← Cell.ofValue column.type value
  return ⟨column.type, column.cells.push cell⟩

/-- Insertion before an index; the index after the last cell appends. The length in the error is
the number of places where a value can be inserted. -/
def insert (column : Column) (index : Nat) (value : Value) : Except Error Column := do
  checkIndex index (column.size + 1)
  let cell ← Cell.ofValue column.type value
  return ⟨column.type, ⟨column.cells.toList.insertIdx index cell⟩⟩

/-- The value at an index, and the column without it. -/
def erase (column : Column) (index : Nat) : Except Error (Value × Column) := do
  let value ← column.get index
  return (value, ⟨column.type, ⟨column.cells.toList.eraseIdx index⟩⟩)

def extend (column : Column) (count : UInt64) : Column := ⟨column.type, column.cells.extend count⟩

/-- Equality of columns: the same type, and equal cells. -/
def same (a b : Column) : Bool :=
  match b.typed? a.type with
  | some cells => a.cells.same cells
  | none => false

/-- A column of values, or the reason why one of them does not fit its type. -/
def ofValues (type : FieldType) (values : List Value) : Except Error Column :=
  (values.mapM (Cell.ofValue type)).map fun cells => ⟨type, ⟨cells⟩⟩

/-- The texts of columns of one length, row by row; nulls have empty ones. -/
def textRows (rows : Nat) : List Column → List (List String)
  | [] => List.replicate rows []
  | column :: rest =>
    List.zipWith (fun value texts => value.text :: texts) column.values (textRows rows rest)

end Column

end Columnar
