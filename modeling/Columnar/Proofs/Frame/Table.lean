import Columnar.Frame.Rows
import Columnar.Proofs.Columns
import Columnar.Proofs.Pivot.Rows

/-! Frames as tables. The columns of a frame of one length make up rows, and what is put into every
column at one place, taken from every column or added to every column makes the same change to the
list of rows. -/
namespace Columnar

/-- The rows of lists of one length, each with one item of every list. -/
def rowsOf (count : Nat) : List (List Value) → List (List Value)
  | [] => List.replicate count []
  | values :: columns => List.zipWith (· :: ·) values (rowsOf count columns)

section Rows

variable {count after index : Nat} {columns : List (List Value)} {row : List Value}

theorem length_rowsOf (even : ∀ values ∈ columns, values.length = count) :
    (rowsOf count columns).length = count := by
  induction columns with
  | nil => simp [rowsOf]
  | cons values rest ih =>
    have later := ih fun other member => even other (by simp [member])
    simp [rowsOf, later, even values (by simp)]

theorem getElem?_rowsOf (even : ∀ values ∈ columns, values.length = count) (inside : index < count) :
    (rowsOf count columns)[index]? = some (columns.map fun values => values[index]?.getD .null) := by
  induction columns with
  | nil => simp [rowsOf, inside]
  | cons values rest ih =>
    have later := ih fun other member => even other (by simp [member])
    have here : index < values.length := by rwa [even values (by simp)]
    simp [rowsOf, List.getElem?_zipWith, later, here]

/-- An edit that puts an item into a list of some length, at a place that does not depend on the
items, so that editing lists side by side is editing the list of their pairs. -/
structure Puts (edit : {α : Type} → α → List α → List α) (count after : Nat) : Prop where
  bare : edit [] (List.replicate count ([] : List Value)) = List.replicate after []
  length : ∀ (value : Value) (values : List Value), values.length = count →
    (edit value values).length = after
  pairs : ∀ (value : Value) (row : List Value) (values : List Value) (rows : List (List Value)),
    values.length = rows.length → List.zipWith (· :: ·) (edit value values) (edit row rows) =
      edit (value :: row) (List.zipWith (· :: ·) values rows)

end Rows

section Selection

variable {column : Column} {rows : List Nat}

theorem values_selectCells (column : Column) (rows : List Nat) :
    (Frame.selectCells column rows).values = pick column.values rows := by
  refine List.map_filterMap.trans ?_
  simp only [pick, ← Column.get?_eq_values]
  rfl

/-- The selected cells stand in the order of the rows they come from. -/
theorem get?_selectCells (inside : ∀ row ∈ rows, row < column.size) (slot : Nat) :
    (Frame.selectCells column rows).get? slot = rows[slot]?.bind column.get? := by
  rw [← Column.length_values] at inside
  rw [Column.get?_eq_values, values_selectCells, getElem?_pick inside]
  simp only [← Column.get?_eq_values]

theorem size_selectCells (inside : ∀ row ∈ rows, row < column.size) :
    (Frame.selectCells column rows).size = rows.length := by
  rw [← Column.length_values] at inside
  rw [← Column.length_values, values_selectCells, length_pick inside]

end Selection

/-- What of a field is not cells. -/
def Field.layout (field : Field) : String × Labels × Option FieldConfig × FieldType :=
  (field.name, field.labels, field.config, field.type)

/-- A row fits types when it has a value for each of them and each takes its value. -/
def Fits (types : List FieldType) (row : List Value) : Prop := List.Forall₂ FieldType.Takes types row

namespace Frame

/-- The rows of a frame, each with the values of all fields. -/
def rows (frame : Frame) : List (List Value) :=
  rowsOf ((frame.fields.map Field.size).headD 0) (frame.fields.map (·.column.values))

variable {frame : Frame} {count : Nat}

theorem rows_of_rowCount (counted : frame.rowCount = .ok count) :
    frame.rows = rowsOf count (frame.fields.map (·.column.values)) := by
  obtain ⟨some, even⟩ := rowCount_eq_ok_iff.1 counted
  obtain ⟨first, rest, fields⟩ := List.exists_cons_of_ne_nil some
  have size : (frame.fields.map Field.size).headD 0 = count := by
    rw [fields, List.map_cons, List.headD_cons]
    exact even first (by simp [fields])
  rw [rows, size]

theorem values_even (counted : frame.rowCount = .ok count) :
    ∀ values ∈ frame.fields.map (·.column.values), values.length = count := by
  intro values member
  obtain ⟨field, inFrame, rfl⟩ := List.mem_map.1 member
  rw [Column.length_values]
  exact (rowCount_eq_ok_iff.1 counted).2 field inFrame

/-- There are as many rows as are counted. -/
theorem length_rows (counted : frame.rowCount = .ok count) : frame.rows.length = count := by
  rw [rows_of_rowCount counted, length_rowsOf (values_even counted)]

/-- Two frames that differ in nothing but cells. -/
structure SameLayout (before after : Frame) : Prop where
  fields : after.fields.map Field.layout = before.fields.map Field.layout
  others : { after with fields := before.fields } = before

theorem SameLayout.refl (frame : Frame) : frame.SameLayout frame := ⟨rfl, rfl⟩

theorem SameLayout.trans {first second third : Frame} (before : first.SameLayout second)
    (after : second.SameLayout third) : first.SameLayout third := by
  refine ⟨after.fields.trans before.fields, ?_⟩
  have here := before.others
  rw [← after.others] at here
  exact here

end Frame

end Columnar
