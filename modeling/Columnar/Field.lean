import Columnar.Column
import Columnar.FieldConfig

/-! Fields: columns with a name, labels and a configuration. -/
namespace Columnar

/-- A column of a frame. -/
structure Field where
  name : String
  labels : Labels
  config : Option FieldConfig
  column : Column

namespace Field

/-- A field of cells that are not written yet. -/
def zeros (name : String) (type : FieldType) (count : Nat) : Field :=
  ⟨name, Labels.empty, none, Column.zeros type count⟩

def type (field : Field) : FieldType := field.column.type

def size (field : Field) : Nat := field.column.size

/-- The field with another column, everything else kept. -/
def withColumn (field : Field) (column : Column) : Field := { field with column }

/-- The same name, labels and type, without cells and without configuration. -/
def emptyCopy (field : Field) : Field :=
  ⟨field.name, field.labels, none, field.column.emptyCopy⟩

/-- Fields with the same name and labels belong to the same series. -/
def sameSeries (a b : Field) : Bool := a.name == b.name && a.labels == b.labels

/-- The configured display name, else the name followed by the labels. -/
def displayName (field : Field) : String :=
  match field.config.bind (·.displayName) with
  | some name => name
  | none =>
    if field.labels.isEmpty then field.name else field.name ++ " " ++ field.labels.text

/-- The text that an index stands for, if the configuration has one for it. -/
def enumText? (field : Field) (index : Nat) : Option String :=
  field.config.bind (·.enumText? index)

/-- A cell as a float, nothing where it is null: truth values are one and zero, times count
milliseconds, indexes count themselves and texts are read. -/
def floatOrNull (field : Field) (index : Nat) : Except Error (Option Binary64) := do
  match ← field.column.get index with
  | .null => return none
  | .of .bool b => return some (Binary64.ofInt (if (b : Bool) then 1 else 0))
  | .of .time t => return some (Binary64.ofInt (Instant.millis t))
  | .of .enum n => return some (Binary64.ofInt (UInt16.toNat n))
  | .of .string s =>
    match readFloat (Text.trim s) with
    | .ok x => return some x
    | .error fault => .error (.text (.cellFloat field.name index s fault))
  | value =>
    match value.number? with
    | some x => return some x
    | none => .error (.typeMismatch none ⟨.float64, false⟩ value.kindName)

/-- A cell as a float; null is no number. -/
def float (field : Field) (index : Nat) : Except Error Binary64 :=
  (field.floatOrNull index).map (·.getD Binary64.nan)

/-- Equality of fields in all their parts. -/
def same (a b : Field) : Bool :=
  let sameConfig := match a.config, b.config with
    | none, none => true
    | some x, some y => x.same y
    | _, _ => false
  a.name == b.name && a.labels == b.labels && sameConfig && a.column.same b.column

end Field

end Columnar
