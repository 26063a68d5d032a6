import Columnar.Frame.Filtering
import Columnar.Proofs.Frame.Calls
import Columnar.Proofs.InPlace

/-! Frames whose fields have different lengths. Whatever needs a row that is there already counts the
rows first and is refused, with the first field whose length differs. A row that is appended and a
row that is copied are not counted: they meet the lengths as they are. -/
namespace Columnar

/-- The first length that differs is reported with its position. -/
theorem firstUneven?_eq_some {expected start : Nat} {lengths : List Nat} {error : Error}
    (found : firstUneven? expected start lengths = some error) :
    ∃ position actual, lengths[position]? = some actual ∧ actual ≠ expected ∧
      (∀ earlier < position, lengths[earlier]? = some expected) ∧
      error = .fieldLengths expected (start + position) actual := by
  induction lengths generalizing start with
  | nil => cases found
  | cons length rest ih =>
    rw [firstUneven?] at found
    split at found
    next same =>
      obtain ⟨position, actual, here, differs, before, reported⟩ := ih found
      refine ⟨position + 1, actual, here, differs, fun earlier below => ?_, ?_⟩
      · cases earlier with
        | zero => exact congrArg some same
        | succ earlier => exact before earlier (Nat.lt_of_succ_lt_succ below)
      · rw [reported, Nat.add_assoc, Nat.add_comm 1]
    next differs =>
      cases found
      exact ⟨0, length, rfl, differs, fun _ below => absurd below (Nat.not_lt_zero _), rfl⟩

namespace Frame

variable {frame : Frame}

/-- Two fields have different lengths. -/
def Ragged (frame : Frame) : Prop :=
  ∃ one ∈ frame.fields, ∃ other ∈ frame.fields, one.size ≠ other.size

/-- The field at a position is the first one that is not as long as the first field. -/
structure UnevenAt (frame : Frame) (expected position actual : Nat) : Prop where
  first : (frame.fields.map Field.size)[0]? = some expected
  here : (frame.fields.map Field.size)[position]? = some actual
  differs : actual ≠ expected
  before : ∀ earlier < position, (frame.fields.map Field.size)[earlier]? = some expected

/-- Counting the rows of a ragged frame names the first field that differs. -/
theorem rowCount_of_ragged (ragged : frame.Ragged) :
    ∃ expected position actual, frame.UnevenAt expected position actual ∧
      frame.rowCount = .error (.fieldLengths expected position actual) := by
  obtain ⟨one, inFields, other, alsoIn, differ⟩ := ragged
  cases counted : frame.rowCount with
  | ok count =>
    have even := (rowCount_eq_ok_iff.1 counted).2
    exact absurd ((even one inFields).trans (even other alsoIn).symm) differ
  | error error =>
    rw [rowCount] at counted
    split at counted
    next none =>
      rw [none] at inFields
      cases inFields
    next first rest fields =>
      split at counted
      · cases counted
      next uneven =>
        cases counted
        obtain ⟨position, actual, here, differs, before, rfl⟩ := firstUneven?_eq_some uneven
        refine ⟨first.size, position + 1, actual, ?_, by rw [Nat.add_comm]⟩
        constructor
        · rw [fields]
          rfl
        · rw [fields]
          exact here
        · exact differs
        · intro earlier below
          rw [fields]
          cases earlier with
          | zero => rfl
          | succ earlier => exact before earlier (Nat.lt_of_succ_lt_succ below)

/-- Every operation that needs a row which is there already is refused with this error, and nothing
changes; a predicate is not even asked. -/
structure RefusesRows (frame : Frame) (error : Error) : Prop where
  insert : ∀ index row, frame.perform (.insert index row) = (frame, .refused error)
  set : ∀ index row, frame.perform (.set index row) = (frame, .refused error)
  erase : ∀ index, frame.perform (.erase index) = (frame, .refused error)
  filter : ∀ field predicate, frame.filterRows field predicate = .error error
  ask : ∀ {σ : Type} field (ask : Value → InPlace σ Bool) now,
    (frame.filterAsking field ask).runOn now = (.error error, now)

theorem refusesRows_of_rowCount {error : Error} (uncounted : frame.rowCount = .error error) :
    frame.RefusesRows error := by
  have stopped : ∀ index bound run, frame.performAt index bound run = (frame, .refused error) := by
    intro index bound run
    rw [performAt, uncounted]
  constructor
  · exact fun index row => stopped ..
  · exact fun index row => stopped ..
  · exact fun index => stopped ..
  · intro field predicate
    rw [filterRows, uncounted]
    rfl
  · intro σ field ask now
    rw [filterAsking, InPlace.runOn_check_bind, uncounted]

/-- The sizes of columns into which a row was put are greater by one. -/
private theorem ragged_of_pushed {after : Frame} {row : List Value} (ragged : frame.Ragged)
    (width : row.length = frame.fields.length)
    (pushed : after.fields.map (·.column.values) =
      List.zipWith (fun value values => values ++ [value]) row
        (frame.fields.map (·.column.values))) : after.Ragged := by
  have sizes : after.fields.map Field.size = frame.fields.map fun field => field.size + 1 := by
    have lengths := congrArg (List.map List.length) pushed
    have each : ∀ field : Field, field.column.values.length = field.size :=
      fun field => field.column.length_values
    rw [List.map_map] at lengths
    simp only [Function.comp_def, each] at lengths
    rw [lengths]
    apply List.ext_getElem
    · simp [width]
    · intro place here there
      simp [each]
  have grown : ∀ field ∈ frame.fields, ∃ longer ∈ after.fields, longer.size = field.size + 1 := by
    intro field member
    have listed : field.size + 1 ∈ after.fields.map Field.size := by
      rw [sizes]
      exact List.mem_map_of_mem member
    exact List.mem_map.1 listed
  obtain ⟨one, inFields, other, alsoIn, differ⟩ := ragged
  obtain ⟨longer, inAfter, size⟩ := grown one inFields
  obtain ⟨longest, alsoAfter, same⟩ := grown other alsoIn
  refine ⟨longer, inAfter, longest, alsoAfter, ?_⟩
  rw [size, same]
  exact fun equal => differ (Nat.succ.inj equal)

/-- A row can be copied where every column reaches, with the item of each of them at the index. -/
theorem row_of_reached {index : Nat} (reached : ∀ field ∈ frame.fields, index < field.size) :
    ∃ values, frame.row index = .ok values ∧
      List.Forall₂ (fun field value => field.column.values[index]? = some value)
        frame.fields values := by
  refine exists_mapM_ok fun field member => ?_
  have inside : index < field.column.values.length := by
    rw [Column.length_values]
    exact reached field member
  refine ⟨field.column.values[index], ?_, List.getElem?_eq_getElem inside⟩
  rw [Column.get, Column.get?_eq_values, List.getElem?_eq_getElem inside]

theorem row_of_short {index : Nat} {field : Field} (member : field ∈ frame.fields)
    (short : field.size ≤ index) : ∃ error, frame.row index = .error error := by
  cases read : frame.row index with
  | error error => exact ⟨error, rfl⟩
  | ok values =>
    obtain ⟨value, -, here⟩ := exists_right_of_forall₂ (mapM_eq_ok_iff.1 read) member
    have beyond : field.column.values.length ≤ index := by
      rwa [Column.length_values]
    rw [Column.get, Column.get?_eq_values, List.getElem?_eq_none beyond] at here
    cases here

/-- What row operations do to a frame with fields of different lengths. Inserting, overwriting and
erasing a row and choosing rows are refused for the first field whose length differs. Appending takes
every row that fits the types, so that the columns stay as uneven as they were, and copying takes a
row from every column that reaches so far; where they refuse, nothing changes either. -/
theorem perform_ragged (ragged : frame.Ragged) :
    (∃ expected position actual, frame.UnevenAt expected position actual ∧
      frame.RefusesRows (.fieldLengths expected position actual)) ∧
    (∀ row, Fits frame.types row → ∃ after, frame.perform (.append row) = (after, .done) ∧
      frame.SameLayout after ∧ after.Ragged ∧
      after.fields.map (·.column.values) =
        List.zipWith (fun value values => values ++ [value]) row
          (frame.fields.map (·.column.values))) ∧
    (∀ row, ¬Fits frame.types row →
      ∃ error, frame.perform (.append row) = (frame, .refused error)) ∧
    (∀ index, (∀ field ∈ frame.fields, index < field.size) →
      ∃ values, frame.perform (.copy index) = (frame, .row values) ∧
        List.Forall₂ (fun field value => field.column.values[index]? = some value)
          frame.fields values) ∧
    ∀ index, (∃ field ∈ frame.fields, field.size ≤ index) →
      ∃ error, frame.perform (.copy index) = (frame, .refused error) := by
  refine ⟨?_, ?_, ?_, ?_, ?_⟩
  · obtain ⟨expected, position, actual, uneven, uncounted⟩ := rowCount_of_ragged ragged
    exact ⟨expected, position, actual, uneven, refusesRows_of_rowCount uncounted⟩
  · intro row fits
    obtain ⟨changed, ran, -, layouts, pushed⟩ :=
      storeInPlace_of_fits fits fun field _ => field.column.push_stores
    have width : row.length = frame.fields.length := by
      rw [← fits.length_eq, types, List.length_map]
    exact ⟨_, ran, ⟨layouts, rfl⟩, ragged_of_pushed ragged width pushed, pushed⟩
  · intro row misfit
    obtain ⟨error, ran, -⟩ := storeInPlace_of_not_fits Column.push misfit
    exact ⟨error, ran⟩
  · intro index reached
    obtain ⟨values, read, items⟩ := row_of_reached reached
    refine ⟨values, ?_, items⟩
    rw [perform, read]
  · rintro index ⟨field, member, short⟩
    obtain ⟨error, refused⟩ := row_of_short member short
    refine ⟨error, ?_⟩
    rw [perform, refused]

/-- Two channels of which the second one has missed a reading. -/
def missedReading : Frame :=
  { name := "channels"
    fields :=
      [⟨"left", Labels.empty, none, ⟨⟨.int8, false⟩, ⟨[Cell.of (1 : Int8), Cell.of (2 : Int8)]⟩⟩⟩,
        ⟨"right", Labels.empty, none, ⟨⟨.int8, false⟩, ⟨[Cell.of (5 : Int8)]⟩⟩⟩] }

theorem perform_missedReading :
    missedReading.Ragged ∧
      missedReading.perform (.set 0 [.of .int8 (3 : Int8), .of .int8 (4 : Int8)]) =
        (missedReading, .refused (.fieldLengths 2 1 1)) ∧
      ∃ error, missedReading.perform (.copy 1) = (missedReading, .refused error) := by
  have ragged : missedReading.Ragged := by
    refine ⟨_, .head _, _, .tail _ (.head _), ?_⟩
    decide
  obtain ⟨⟨expected, position, actual, uneven, refuses⟩, -, -, -, short⟩ := perform_ragged ragged
  refine ⟨ragged, ?_, short 1 ⟨_, .tail _ (.head _), Nat.le_refl 1⟩⟩
  rw [refuses.set]
  obtain ⟨first, here, differs, before⟩ := uneven
  cases first
  match position with
  | 0 =>
    cases here
    exact absurd rfl differs
  | 1 =>
    cases here
    rfl
  | position + 2 => cases before 1 (by omega)

/-- A row is appended to the channels, and the first reading of each is copied as if they were of one
row. -/
theorem missedReading_unchecked :
    missedReading.Ragged ∧
      (∃ after, missedReading.perform (.append [.of .int8 (3 : Int8), .of .int8 (6 : Int8)]) =
        (after, .done)) ∧
      missedReading.perform (.copy 0) =
        (missedReading, .row [.of .int8 (1 : Int8), .of .int8 (5 : Int8)]) := by
  refine ⟨⟨_, .head _, _, .tail _ (.head _), by decide⟩, ⟨_, rfl⟩, rfl⟩

end Frame

end Columnar
