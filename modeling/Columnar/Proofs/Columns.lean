import Columnar.Proofs.Cells
import Mathlib.Data.List.InsertIdx

/-! Columns and the values they take. A column takes a value when its type does; the check made
beforehand and the conversion made while storing agree on that, and a stored value is read back as
it was given. A column that is extended grows, unless its length would be too great for a word. -/
namespace Columnar

namespace FieldType

/-- A type takes the values of its kind, and null where it allows that. -/
def Takes (type : FieldType) : Value → Prop
  | .null => type.nullable = true
  | .of kind _ => kind = type.kind

instance (type : FieldType) : (value : Value) → Decidable (type.Takes value)
  | .null => inferInstanceAs (Decidable (type.nullable = true))
  | .of kind _ => inferInstanceAs (Decidable (kind = type.kind))

/-- A type takes what one of its kind takes that allows nulls only if it does. -/
theorem Takes.mono {narrow wide : FieldType} {value : Value} (takes : narrow.Takes value)
    (kind : narrow.kind = wide.kind) (nullable : narrow.nullable = true → wide.nullable = true) :
    wide.Takes value := by
  cases value with
  | null => exact nullable takes
  | of _ element => exact Eq.trans takes kind

/-- The value of a cell that is not written yet: null where the type allows it, else the zero of its
kind. -/
def blank (type : FieldType) : Value :=
  if type.nullable then .null else .of type.kind type.kind.zero

/-- Why a type does not take a value, at the position of a field if one is known. -/
def refusal (field : Option Nat) (type : FieldType) (value : Value) : Error :=
  if value.isNull then .nullNotAllowed field type else .typeMismatch field type value.kindName

theorem atField_refusal (position : Nat) (field : Option Nat) (type : FieldType) (value : Value) :
    (type.refusal field value).atField position = type.refusal (some position) value := by
  cases value <;> rfl

end FieldType

namespace Cell

variable {type : FieldType} {value : Value}

/-- A value that the type takes becomes a cell with this value. -/
theorem ofValue_of_takes (takes : type.Takes value) :
    ∃ cell : Cell type, ofValue type value = .ok cell ∧ cell.value = value := by
  obtain ⟨kind, nullable⟩ := type
  cases value with
  | null =>
    have allowed : nullable = true := takes
    subst allowed
    exact ⟨empty rfl, rfl, rfl⟩
  | of kind element =>
    cases takes
    exact ⟨of element, by simp [ofValue, ofValue?, Value.element?], rfl⟩

theorem ofValue_of_not_takes (refused : ¬type.Takes value) :
    ofValue type value = .error (type.refusal none value) := by
  obtain ⟨kind, nullable⟩ := type
  cases value with
  | null =>
    have required : nullable = false := by simpa [FieldType.Takes] using refused
    subst required
    rfl
  | of kind element =>
    have differ : ¬kind = _ := refused
    simp [ofValue, ofValue?, Value.element?, differ, FieldType.refusal, Value.isNull]

/-- A type takes the values of its cells. -/
theorem takes_value (cell : Cell type) : type.Takes cell.value := by
  obtain ⟨content, present⟩ := cell
  cases content with
  | none => exact nullable_of_content_none ⟨none, present⟩ rfl
  | some element => exact rfl

theorem value_zero (type : FieldType) : (zero type).value = type.blank := by
  obtain ⟨kind, nullable⟩ := type
  cases nullable <;> rfl

/-- A cell that is made of a value has this value. -/
theorem value_of_ofValue {cell : Cell type} (made : ofValue type value = .ok cell) :
    cell.value = value := by
  by_cases takes : type.Takes value
  · obtain ⟨other, also, same⟩ := ofValue_of_takes takes
    rw [made] at also
    cases also
    exact same
  · rw [ofValue_of_not_takes takes] at made
    cases made

end Cell

/-- A list that should grow by so many blanks. Lengths are words of the machine: where no word can hold
their sum, no blank is added, and as many items are left as the sum says that starts again at zero. -/
def grown {α : Type} (blank : α) (count : UInt64) (items : List α) : List α :=
  if items.length + count.toNat < UInt64.size then items ++ List.replicate count.toNat blank
  else items.take ((items.length + count.toNat) % UInt64.size)

section Growth

variable {α : Type} {count : UInt64} {items : List α}

theorem toNat_ofNat_add (length : Nat) (count : UInt64) :
    (UInt64.ofNat length + count).toNat = (length + count.toNat) % UInt64.size := by
  rw [UInt64.toNat_add, UInt64.toNat_ofNat', Nat.mod_add_mod]

/-- A sum that starts again at zero does not come back to where it was. -/
theorem sum_mod_lt {length : Nat} (beyond : UInt64.size ≤ length + count.toNat) :
    (length + count.toNat) % UInt64.size < length := by
  have word : count.toNat < UInt64.size := count.toNat_lt_size
  rw [Nat.mod_eq_sub_mod beyond]
  exact Nat.lt_of_le_of_lt (Nat.mod_le ..) (by omega)

/-- As many items as a word says, filled up with blanks. -/
theorem take_append_eq_grown (blank : α) (count : UInt64) (items : List α) :
    items.take (UInt64.ofNat items.length + count).toNat ++
        List.replicate ((UInt64.ofNat items.length + count).toNat - items.length) blank =
      grown blank count items := by
  rw [toNat_ofNat_add, grown]
  split
  next fits =>
    rw [Nat.mod_eq_of_lt fits, List.take_of_length_le (Nat.le_add_right ..), Nat.add_sub_cancel_left]
  next beyond =>
    have less := Nat.le_of_lt (sum_mod_lt (Nat.le_of_not_lt beyond))
    rw [Nat.sub_eq_zero_of_le less, List.replicate_zero, List.append_nil]

theorem length_grown (blank : α) (count : UInt64) (items : List α) :
    (grown blank count items).length = (items.length + count.toNat) % UInt64.size := by
  rw [grown]
  split
  next fits => rw [List.length_append, List.length_replicate, Nat.mod_eq_of_lt fits]
  next beyond =>
    have less := Nat.le_of_lt (sum_mod_lt (Nat.le_of_not_lt beyond))
    rw [List.length_take, Nat.min_eq_left less]

/-- All blanks are added just where a word can hold the new length; elsewhere items are lost. -/
theorem grown_eq_append_iff {blank : α} :
    grown blank count items = items ++ List.replicate count.toNat blank ↔
      items.length + count.toNat < UInt64.size := by
  refine ⟨fun same => ?_, fun fits => if_pos fits⟩
  by_contra beyond
  have less := sum_mod_lt (Nat.le_of_not_lt beyond)
  have sizes := congrArg List.length same
  rw [length_grown, List.length_append, List.length_replicate] at sizes
  omega

theorem map_grown {β : Type} (change : α → β) (blank : α) :
    (grown blank count items).map change = grown (change blank) count (items.map change) := by
  rw [grown, grown, List.length_map]
  split
  · rw [List.map_append, List.map_replicate]
  · rw [List.map_take]

end Growth

namespace Column

variable {column : Column} {value : Value}

/-- The check says of every value what storing it would say. -/
theorem check_eq_ofValue (column : Column) (value : Value) :
    column.check value = (Cell.ofValue column.type value).map fun _ => () := by
  obtain ⟨⟨kind, nullable⟩, cells⟩ := column
  cases value with
  | null => cases nullable <;> rfl
  | of actual element =>
    by_cases same : actual = kind
    · subst same
      simp [check, Value.fieldType?, Value.kind?, FieldType.withoutNull, Cell.ofValue, Cell.ofValue?,
        Value.element?, Except.map]
    · simp [check, Value.fieldType?, Value.kind?, FieldType.withoutNull, Cell.ofValue, Cell.ofValue?,
        Value.element?, same, Except.map, Value.isNull, Value.kindName, FieldType.name]

theorem check_of_takes (takes : column.type.Takes value) : column.check value = .ok () := by
  obtain ⟨cell, made, -⟩ := Cell.ofValue_of_takes takes
  rw [check_eq_ofValue, made]
  rfl

theorem check_of_not_takes (refused : ¬column.type.Takes value) :
    column.check value = .error (column.type.refusal none value) := by
  rw [check_eq_ofValue, Cell.ofValue_of_not_takes refused]
  rfl

/-- A change stores values in a column: it succeeds with every value that the type takes, and edits
the list of values. -/
def Stores (change : Column → Value → Except Error Column) (edit : Value → List Value → List Value)
    (column : Column) : Prop :=
  ∀ value, column.type.Takes value → ∃ changed, change column value = .ok changed ∧
    changed.type = column.type ∧ changed.values = edit value column.values

theorem push_stores (column : Column) :
    Stores push (fun value values => values ++ [value]) column := by
  intro value takes
  obtain ⟨cell, made, same⟩ := Cell.ofValue_of_takes takes
  refine ⟨⟨column.type, column.cells.push cell⟩, ?_, rfl, ?_⟩
  · exact bind_eq_ok_iff.2 ⟨cell, made, rfl⟩
  · simp [values, Cells.values, Cells.push, same]

theorem insert_stores {index : Nat} (inside : index ≤ column.size) :
    Stores (fun column value => column.insert index value)
      (fun value values => values.insertIdx index value) column := by
  intro value takes
  obtain ⟨cell, made, same⟩ := Cell.ofValue_of_takes takes
  refine ⟨⟨column.type, ⟨column.cells.toList.insertIdx index cell⟩⟩, ?_, rfl, ?_⟩
  · have found : checkIndex index (column.size + 1) = .ok () := if_pos (Nat.lt_succ_of_le inside)
    exact bind_eq_ok_iff.2 ⟨(), found, bind_eq_ok_iff.2 ⟨cell, made, rfl⟩⟩
  · simp [values, Cells.values, List.map_insertIdx, same]

theorem set_stores {index : Nat} (inside : index < column.size) :
    Stores (fun column value => column.set index value)
      (fun value values => values.set index value) column := by
  intro value takes
  obtain ⟨cell, made, same⟩ := Cell.ofValue_of_takes takes
  refine ⟨⟨column.type, ⟨column.cells.toList.set index cell⟩⟩, ?_, rfl, ?_⟩
  · have found : checkIndex index column.size = .ok () := if_pos inside
    exact bind_eq_ok_iff.2 ⟨(), found, bind_eq_ok_iff.2 ⟨cell, made, rfl⟩⟩
  · simp [values, Cells.values, List.map_set, same]

theorem erase_of_lt {index : Nat} (inside : index < column.size) :
    ∃ value shorter, column.erase index = .ok (value, shorter) ∧ shorter.type = column.type ∧
      shorter.values = column.values.eraseIdx index := by
  have bound : index < column.cells.toList.length := inside
  have found : column.get? index = some column.cells.toList[index].value := by
    simp [get?, Cells.get?, bound]
  refine ⟨column.cells.toList[index].value,
    ⟨column.type, ⟨column.cells.toList.eraseIdx index⟩⟩, ?_, rfl, ?_⟩
  · exact bind_eq_ok_iff.2 ⟨column.cells.toList[index].value, by rw [get, found], rfl⟩
  · simp [values, Cells.values, List.eraseIdx_map]

/-- Overwriting a cell changes what is read there and nothing else. -/
theorem get_of_set {changed : Column} {index : Nat}
    (stored : column.set index value = .ok changed) :
    changed.type = column.type ∧ changed.size = column.size ∧ changed.get index = .ok value ∧
      ∀ other ≠ index, changed.get other = column.get other := by
  obtain ⟨_, found, stored⟩ := bind_eq_ok_iff.1 stored
  obtain ⟨cell, made, same⟩ := bind_eq_ok_iff.1 stored
  cases same
  have inside : index < column.cells.toList.length := by
    unfold checkIndex at found
    split at found
    next inside => exact inside
    next => cases found
  have size : Column.size ⟨column.type, ⟨column.cells.toList.set index cell⟩⟩ = column.size :=
    List.length_set
  have read := Cell.value_of_ofValue made
  refine ⟨rfl, size, ?_, fun other differ => ?_⟩
  · simp [get, get?, Cells.get?, inside, read]
  · rw [get, get, size]
    simp [get?, Cells.get?, differ.symm]

/-- The values grow as the cells do; new cells hold the blank value of the type. -/
theorem values_extend (column : Column) (count : UInt64) :
    (column.extend count).values = grown column.type.blank count column.values := by
  have cells : (column.extend count).cells.toList =
      grown (Cell.zero column.type) count column.cells.toList :=
    take_append_eq_grown ..
  rw [values, Cells.values, cells, ← Cell.value_zero]
  exact map_grown ..

end Column

end Columnar
