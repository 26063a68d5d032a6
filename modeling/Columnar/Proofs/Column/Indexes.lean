import Columnar.Proofs.Column.Calls
import Columnar.Proofs.Frame.Calls

/-! Indexes out of range. A column is left alone by a call with such an index, and says which index it
was. As the length it names the number of its values, except that inserting names the number of places
where a value can be inserted, which is greater by one. Inserting a row names the number of rows, so
that it disagrees with inserting into one of the fields. -/
namespace Columnar

/-- The index of a call, and the number that it must stay below in a column of so many values. -/
def CellCall.place? (size : Nat) : CellCall → Option (Nat × Nat)
  | .set index _ => some (index, size)
  | .insert index _ => some (index, size + 1)
  | .erase index => some (index, size)
  | .push _ => none
  | .extend _ => none
  | .emptyCopy => none

namespace Column

variable {column : Column} {index length : Nat}

theorem get_of_beyond (beyond : column.size ≤ index) :
    column.get index = .error (.indexOutOfRange index column.size) := by
  rw [← length_values] at beyond ⊢
  exact column.reads_values.beyond index beyond

theorem present_of_beyond (beyond : column.size ≤ index) :
    column.present index = .error (.indexOutOfRange index column.size) := by
  rw [present, get_of_beyond beyond]
  rfl

/-- A call whose index is not below its bound names both and changes nothing. -/
theorem perform_of_beyond {call : CellCall} (place : call.place? column.size = some (index, length))
    (beyond : length ≤ index) :
    column.perform call = (column, .refused (.indexOutOfRange index length)) := by
  cases call with
  | set other value =>
    cases place
    rw [perform, performAt, checkIndex_of_le beyond]
  | insert other value =>
    cases place
    rw [perform, performAt, checkIndex_of_le beyond]
  | erase other =>
    cases place
    rw [perform, performAt, checkIndex_of_le beyond]
  | push value => cases place
  | extend count => cases place
  | emptyCopy => cases place

/-- A value is not refused for an index. -/
theorem storeInPlace_ne {value : Value} {put : Cell column.type → Except CellFault (Cells column.type)} :
    (column.storeInPlace value put).2 ≠ .refused (.indexOutOfRange index length) := by
  intro refused
  unfold storeInPlace at refused
  by_cases takes : column.type.Takes value
  · obtain ⟨cell, made, -⟩ := Cell.ofValue_of_takes takes
    rw [made] at refused
    dsimp only at refused
    cases stored : put cell with
    | error fault =>
      rw [stored] at refused
      cases refused
    | ok cells =>
      rw [stored] at refused
      cases refused
  · rw [Cell.ofValue_of_not_takes takes, FieldType.refusal] at refused
    dsimp only at refused
    split at refused
    · cases refused
    · cases refused

/-- A call at an index is refused for it only where it reaches the bound, if what it does there is not
refused for an index. -/
theorem performAt_refused {place bound : Nat} {run : Column × CellAnswer}
    (refused : (column.performAt place bound run).2 = .refused (.indexOutOfRange index length))
    (never : run.2 ≠ .refused (.indexOutOfRange index length)) :
    (place, bound) = (index, length) ∧ length ≤ index := by
  by_cases inside : place < bound
  · rw [performAt, checkIndex_of_lt inside] at refused
    exact absurd refused never
  · have beyond := Nat.le_of_not_lt inside
    rw [performAt, checkIndex_of_le beyond] at refused
    cases refused
    exact ⟨rfl, beyond⟩

/-- No call is refused for an index that is below its bound. -/
theorem place_of_refused {call : CellCall}
    (refused : (column.perform call).2 = .refused (.indexOutOfRange index length)) :
    call.place? column.size = some (index, length) ∧ length ≤ index := by
  cases call with
  | set place value =>
    obtain ⟨same, beyond⟩ := performAt_refused refused storeInPlace_ne
    exact ⟨congrArg some same, beyond⟩
  | insert place value =>
    obtain ⟨same, beyond⟩ := performAt_refused refused storeInPlace_ne
    exact ⟨congrArg some same, beyond⟩
  | erase place =>
    obtain ⟨same, beyond⟩ := performAt_refused refused <| by
      cases column.cells.erase place with
      | error fault => exact nofun
      | ok erased => exact nofun
    exact ⟨congrArg some same, beyond⟩
  | push value => exact absurd refused storeInPlace_ne
  | extend count => cases refused
  | emptyCopy => cases refused

end Column

namespace Frame

variable {frame : Frame} {count index : Nat}

theorem insert_of_beyond (counted : frame.rowCount = .ok count) (beyond : count < index)
    (row : List Value) :
    frame.perform (.insert index row) = (frame, .refused (.indexOutOfRange index count)) := by
  rw [perform, performAt, counted]
  exact if_pos beyond

/-- Each field of a frame tells one place more than the frame. -/
theorem insert_of_field (counted : frame.rowCount = .ok count) (beyond : count < index)
    {field : Field} (member : field ∈ frame.fields) (value : Value) :
    field.column.perform (.insert index value) =
      (field.column, .refused (.indexOutOfRange index (count + 1))) := by
  have size : field.column.size = count := (rowCount_eq_ok_iff.1 counted).2 field member
  apply Column.perform_of_beyond
  · rw [CellCall.place?, size]
  · exact beyond

/-- What is said of indexes out of range. Reading a value names the number of values. A call names its
bound when its index is not below it, and only then, and leaves the column alone; the bound is the number
of values, but for inserting it is the number of places, one more. So, wherever a row cannot be inserted,
the frame names the number of its rows and each of its fields one more than that. -/
theorem refused_outOfRange (column : Column) (frame : Frame) (index : Nat) :
    (column.size ≤ index → column.get index = .error (.indexOutOfRange index column.size) ∧
      column.present index = .error (.indexOutOfRange index column.size)) ∧
    (∀ call length,
      ((column.perform call).2 = .refused (.indexOutOfRange index length) ↔
        call.place? column.size = some (index, length) ∧ length ≤ index) ∧
      ((column.perform call).2 = .refused (.indexOutOfRange index length) →
        (column.perform call).1 = column)) ∧
    ∀ count, frame.rowCount = .ok count → count < index →
      (∀ row, frame.perform (.insert index row) =
        (frame, .refused (.indexOutOfRange index count))) ∧
      ∀ field ∈ frame.fields, ∀ value, field.column.perform (.insert index value) =
        (field.column, .refused (.indexOutOfRange index (count + 1))) := by
  refine ⟨fun beyond => ?_, fun call length => ?_, fun count counted beyond => ?_⟩
  · exact ⟨Column.get_of_beyond beyond, Column.present_of_beyond beyond⟩
  · refine ⟨⟨Column.place_of_refused, fun ⟨place, beyond⟩ => ?_⟩, fun refused => ?_⟩
    · rw [Column.perform_of_beyond place beyond]
    · obtain ⟨place, beyond⟩ := Column.place_of_refused refused
      rw [Column.perform_of_beyond place beyond]
  · exact ⟨insert_of_beyond counted beyond, fun field member value =>
      insert_of_field counted beyond member value⟩

/-- A lamp that was on once. -/
def lampStates : Column := ⟨⟨.bool, false⟩, ⟨[Cell.of true]⟩⟩

def lamp : Frame := { name := "lamp", fields := [⟨"on", Labels.empty, none, lampStates⟩] }

theorem refused_lamp :
    lampStates.size ≤ 1 ∧ lampStates.present 1 = .error (.indexOutOfRange 1 1) ∧
      lampStates.perform (.set 1 .null) = (lampStates, .refused (.indexOutOfRange 1 1)) ∧
      lampStates.perform (.erase 4) = (lampStates, .refused (.indexOutOfRange 4 1)) ∧
      lamp.rowCount = .ok 1 ∧
      lamp.perform (.insert 2 []) = (lamp, .refused (.indexOutOfRange 2 1)) := by
  have refused : ∀ call index, call.place? lampStates.size = some (index, 1) → 1 ≤ index →
      lampStates.perform call = (lampStates, .refused (.indexOutOfRange index 1)) := by
    intro call index place beyond
    obtain ⟨told, kept⟩ := (refused_outOfRange lampStates lamp index).2.1 call 1
    have answer := told.2 ⟨place, beyond⟩
    exact Prod.ext (kept answer) answer
  have counted : lamp.rowCount = .ok 1 := rfl
  obtain ⟨read, -, -⟩ := refused_outOfRange lampStates lamp 1
  obtain ⟨-, -, rows⟩ := refused_outOfRange lampStates lamp 2
  exact ⟨Nat.le_refl 1, (read (Nat.le_refl 1)).2, refused (.set 1 .null) 1 rfl (by decide),
    refused (.erase 4) 4 rfl (by decide), counted, (rows 1 counted (by decide)).1 []⟩

/-- There is one state. Inserting into the field at index 2 speaks of a length of two, inserting a row
there of a length of one. -/
theorem lamp_overstated :
    lampStates.size = 1 ∧
      lampStates.perform (.insert 2 (.of .bool false)) =
        (lampStates, .refused (.indexOutOfRange 2 2)) ∧
      lamp.perform (.insert 2 [.of .bool false]) = (lamp, .refused (.indexOutOfRange 2 1)) :=
  ⟨rfl, rfl, rfl⟩

end Frame

end Columnar
