import Columnar.Column
import Columnar.Proofs.Collections

/-! Cells and their values. A cell is known by its value, and a column made of the values of cells
of its type holds those cells. -/
namespace Columnar

namespace Cell

variable {type : FieldType}

/-- Only where nulls are allowed does a cell hold nothing. -/
theorem nullable_of_content_none (cell : Cell type) (nothing : cell.content = none) :
    type.nullable = true := by
  by_contra required
  have present := cell.present (by simpa using required)
  rw [nothing] at present
  cases present

@[simp] theorem value_of (element : type.kind.Element) : (Cell.of element : Cell type).value =
    .of type.kind element := rfl

theorem value_zero_of_nullable (nullable : type.nullable = true) :
    (Cell.zero type).value = .null := by
  rw [zero, dif_pos nullable]
  rfl

/-- A cell is the cell of its value. -/
theorem ofValue_value (cell : Cell type) : ofValue type cell.value = .ok cell := by
  obtain ⟨content, present⟩ := cell
  cases content with
  | none =>
    have allowed := nullable_of_content_none ⟨none, present⟩ rfl
    simp [ofValue, ofValue?, value, allowed, empty]
  | some element => simp [ofValue, ofValue?, value, Value.element?, of]

/-- A cell is known by its value. -/
theorem eq_of_value {first second : Cell type} (same : first.value = second.value) :
    first = second := by
  have one := ofValue_value first
  rw [same, ofValue_value second] at one
  cases one
  rfl

end Cell

namespace Column

/-- A column is known by its type and its values. -/
theorem eq_of_values {first second : Column} (type : first.type = second.type)
    (values : first.values = second.values) : first = second := by
  obtain ⟨firstType, cells⟩ := first
  obtain ⟨secondType, others⟩ := second
  obtain rfl : firstType = secondType := type
  have same : cells.toList = others.toList :=
    List.map_injective_iff.2 (fun _ _ => Cell.eq_of_value) values
  obtain ⟨cells⟩ := cells
  obtain ⟨others⟩ := others
  rw [show cells = others from same]

/-- A column made of values that cells of its type have holds these values. -/
theorem ofValues_eq_ok {type : FieldType} {values : List Value}
    (fitting : ∀ value ∈ values, ∃ cell : Cell type, cell.value = value) :
    ∃ cells : Cells type, ofValues type values = .ok ⟨type, cells⟩ ∧ cells.values = values := by
  have made : ∀ value ∈ values, ∃ cell : Cell type,
      Cell.ofValue type value = .ok cell ∧ cell.value = value := by
    intro value member
    obtain ⟨cell, rfl⟩ := fitting value member
    exact ⟨cell, Cell.ofValue_value cell, rfl⟩
  obtain ⟨cells, ran, same⟩ := exists_mapM_ok made
  refine ⟨⟨cells⟩, by rw [ofValues, ran]; rfl, ?_⟩
  rw [Cells.values, ← List.forall₂_eq_eq_eq, List.forall₂_map_left_iff]
  exact same.flip

end Column

end Columnar
