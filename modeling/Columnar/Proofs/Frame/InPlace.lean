import Columnar.Frame.InPlace
import Columnar.Proofs.Frame.Table
import Columnar.Proofs.InPlace

/-! What steps make of a frame. Fields that are changed one after the other are changed all together;
a cell is overwritten or nothing happens. -/
namespace Columnar

/-- The type and the number of the cells of a field. -/
def Field.shape (field : Field) : FieldType × Nat := (field.type, field.size)

namespace Frame

variable {frame : Frame} {field row : Nat} {value : Value}

/-- What of every field does not depend on the items stays. -/
theorem map_zipWith_change {α β : Type} {change : Field → α → Field} {part : Field → β}
    (same : ∀ field item, part (change field item) = part field) {fields : List Field}
    {items : List α} (count : items.length = fields.length) :
    (List.zipWith change fields items).map part = fields.map part := by
  induction fields generalizing items with
  | nil => rw [List.eq_nil_of_length_eq_zero count, List.zipWith_nil_left]
  | cons field rest ih =>
    obtain ⟨item, others, rfl⟩ := List.exists_cons_of_length_eq_add_one count
    rw [List.zipWith_cons_cons, List.map_cons, same, ih (Nat.succ.inj count), List.map_cons]

/-- Items put from a position on change the fields there, one by one. -/
theorem runOn_changeEach {α : Type} (change : Field → α → Field) (frame : Frame)
    (before : List Field) {rest : List Field} {items : List α} (same : items.length = rest.length) :
    (changeEach change before.length items).runOn { frame with fields := before ++ rest } =
      (.ok (), { frame with fields := before ++ List.zipWith change rest items }) := by
  induction items generalizing before rest with
  | nil =>
    cases List.eq_nil_of_length_eq_zero same.symm
    rfl
  | cons item items ih =>
    cases rest with
    | nil => cases same
    | cons field rest =>
      have changed : ((before ++ field :: rest).modify before.length fun field =>
          change field item) = before ++ [change field item] ++ rest := by
        rw [List.append_assoc]
        exact List.modifyTailIdx_add _ 0 before (field :: rest)
      have position : (before ++ [change field item]).length = before.length + 1 := by simp
      rw [List.zipWith_cons_cons, List.append_cons before _ (List.zipWith _ _ _), changeEach,
        InPlace.runOn_modify_bind, changed, ← position]
      exact ih _ (Nat.succ.inj same)

/-- As many items as there are fields change them all. -/
theorem changeEach_settles {α : Type} {change : Field → α → Field} {items : List α}
    (same : items.length = frame.fields.length) :
    (changeEach change 0 items).Settles frame
      (.ok { frame with fields := List.zipWith change frame.fields items }) :=
  runOn_changeEach change frame [] same

theorem storeCell_settles (frame : Frame) (field row : Nat) (value : Value) :
    (storeCell field row value).Settles frame (frame.set field row value) := by
  refine InPlace.settles_state_bind (InPlace.settles_check_bind fun found here => ?_)
  cases stored : found.column.set row value with
  | ok column => exact InPlace.settles_modify _
  | error error => exact InPlace.settles_throw _

theorem field_eq_ok_iff {found : Field} :
    frame.field field = .ok found ↔ frame.fields[field]? = some found := by
  unfold Frame.field
  split
  next here => simp [here]
  next absent => simp [absent]

/-- Two frames of one shape that differ in nothing but one cell, which has a value now. -/
structure OneCell (before : Frame) (field row : Nat) (value : Value) (after : Frame) : Prop where
  layout : before.SameLayout after
  shape : after.fields.map Field.shape = before.fields.map Field.shape
  here : after.get field row = .ok value
  others : ∀ otherField otherRow, (otherField, otherRow) ≠ (field, row) →
    after.get otherField otherRow = before.get otherField otherRow

/-- What a field has in common with the one it replaces stays. -/
theorem map_withFieldAt {α : Type} {part : Field → α} {old new : Field}
    (here : frame.fields[field]? = some old) (same : part new = part old) :
    (frame.withFieldAt field new).fields.map part = frame.fields.map part := by
  obtain ⟨inside, rfl⟩ := List.getElem?_eq_some_iff.1 here
  have bound : field < (frame.fields.map part).length := by rwa [List.length_map]
  have listed : (frame.fields.map part)[field] = part frame.fields[field] := List.getElem_map ..
  rw [withFieldAt, List.map_set, same, ← listed]
  exact List.set_getElem_self bound

/-- What is read depends on the columns alone. -/
theorem get_of_columns {after : Frame}
    (same : after.fields.map Field.column = frame.fields.map Field.column) (field row : Nat) :
    after.get field row = frame.get field row := by
  have count : after.fields.length = frame.fields.length := by
    simpa using congrArg List.length same
  have here : (after.fields.map Field.column)[field]? = (frame.fields.map Field.column)[field]? :=
    congrArg (·[field]?) same
  rw [List.getElem?_map, List.getElem?_map] at here
  unfold get Frame.field
  cases one : after.fields[field]? with
  | none =>
    rw [one, Option.map_none, eq_comm, Option.map_eq_none_iff] at here
    rw [here, count]
  | some changed =>
    rw [one, Option.map_some, eq_comm, Option.map_eq_some_iff] at here
    obtain ⟨kept, there, column⟩ := here
    rw [there]
    exact congrArg (fun column => column.get row) column.symm

theorem shape_of_columns {after : Frame}
    (same : after.fields.map Field.column = frame.fields.map Field.column) :
    after.fields.map Field.shape = frame.fields.map Field.shape := by
  have shape : Field.shape = (fun column : Column => (column.type, column.size)) ∘ Field.column := rfl
  rw [shape, ← List.map_map, ← List.map_map, same]

theorem get_withFieldAt {old new : Field} (here : frame.fields[field]? = some old) (row : Nat) :
    (frame.withFieldAt field new).get field row = new.column.get row := by
  have inside := (List.getElem?_eq_some_iff.1 here).1
  have found : (frame.withFieldAt field new).field field = .ok new :=
    field_eq_ok_iff.2 (List.getElem?_set_self inside)
  rw [get, found]
  rfl

theorem get_withFieldAt_of_ne {other : Nat} (differ : other ≠ field) (new : Field) (row : Nat) :
    (frame.withFieldAt field new).get other row = frame.get other row := by
  have same : (frame.withFieldAt field new).field other = frame.field other := by
    simp [Frame.field, withFieldAt, differ.symm]
  rw [get, same]
  rfl

/-- Storing a value changes one cell. -/
theorem oneCell_of_set {after : Frame} (stored : frame.set field row value = .ok after) :
    frame.OneCell field row value after := by
  obtain ⟨found, there, stored⟩ := bind_eq_ok_iff.1 stored
  split at stored
  next column changed =>
    cases stored
    have there := field_eq_ok_iff.1 there
    obtain ⟨typed, size, read, others⟩ := Column.get_of_set changed
    have layout : (found.withColumn column).layout = found.layout :=
      congrArg (found.name, found.labels, found.config, ·) typed
    have shape : (found.withColumn column).shape = found.shape := Prod.ext typed size
    refine ⟨⟨map_withFieldAt there layout, rfl⟩, map_withFieldAt there shape, ?_, ?_⟩
    · rw [get_withFieldAt there]
      exact read
    · intro otherField otherRow differ
      by_cases same : otherField = field
      · subst same
        have different : otherRow ≠ row := fun equal => differ (by rw [equal])
        have before : frame.get otherField otherRow = found.column.get otherRow := by
          rw [get, field_eq_ok_iff.2 there]
          rfl
        rw [get_withFieldAt there, before]
        exact others otherRow different
      · exact get_withFieldAt_of_ne same _ _
  next => cases stored

/-- A value that the type takes is stored wherever there is a cell. -/
theorem set_of_takes {found : Field} (there : frame.fields[field]? = some found)
    (inside : row < found.size) (takes : found.type.Takes value) :
    ∃ after, frame.set field row value = .ok after := by
  obtain ⟨column, stored, -⟩ := Column.set_stores inside value takes
  refine ⟨frame.withFieldAt field (found.withColumn column),
    bind_eq_ok_iff.2 ⟨found, field_eq_ok_iff.2 there, ?_⟩⟩
  dsimp only at stored
  rw [stored]
  rfl

end Frame

end Columnar
