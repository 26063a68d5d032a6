import Columnar.Frame.Calls
import Columnar.Proofs.Frame.Table

/-! Calls that change a frame in place are steps of a table. A row is checked before any column
changes, and what was checked is what every column then asks again, so that no column refuses after
another one has changed: a call edits the list of rows or leaves the frame as it was. Extending is never
refused; where a word of the machine cannot hold the new number of rows, it takes rows away. -/
namespace Columnar

/-- The first value of a row that its type does not take. -/
structure Offends (types : List FieldType) (row : List Value) (position : Nat) (type : FieldType)
    (value : Value) : Prop where
  typeThere : types[position]? = some type
  valueThere : row[position]? = some value
  refused : ¬type.Takes value
  first : ∀ earlier < position, ∀ type value, types[earlier]? = some type →
    row[earlier]? = some value → type.Takes value

/-- The calls that a table grants, with its rows afterwards and the answer. -/
inductive RowCall.Yields (types : List FieldType) (rows : List (List Value)) :
    RowCall → List (List Value) → RowAnswer → Prop where
  | append {row : List Value} (fits : Fits types row) :
    Yields types rows (.append row) (rows ++ [row]) .done
  | insert {index : Nat} {row : List Value} (inside : index ≤ rows.length) (fits : Fits types row) :
    Yields types rows (.insert index row) (rows.insertIdx index row) .done
  | set {index : Nat} {row : List Value} (inside : index < rows.length) (fits : Fits types row) :
    Yields types rows (.set index row) (rows.set index row) .done
  | erase {index : Nat} (inside : index < rows.length) :
    Yields types rows (.erase index) (rows.eraseIdx index) .done
  | extend (count : UInt64) :
    Yields types rows (.extend count) (grown (types.map FieldType.blank) count rows) .done
  | copy {index : Nat} {row : List Value} (here : rows[index]? = some row) :
    Yields types rows (.copy index) rows (.row row)

theorem RowCall.Yields.unique {types : List FieldType} {rows : List (List Value)} {call : RowCall}
    {some other : List (List Value)} {answer result : RowAnswer}
    (one : call.Yields types rows some answer) (two : call.Yields types rows other result) :
    some = other ∧ answer = result := by
  cases one with
  | copy here =>
    rcases two with _ | _ | _ | _ | _ | there
    rw [here] at there
    cases there
    exact ⟨rfl, rfl⟩
  | _ =>
    cases two
    exact ⟨rfl, rfl⟩

section Rows

variable {types : List FieldType} {row : List Value}

/-- A row with a value for every type fits, or it has a first value that does not. -/
theorem fits_or_offends (size : row.length = types.length) :
    Fits types row ∨ ∃ position type value, Offends types row position type value := by
  induction types generalizing row with
  | nil =>
    rw [List.length_eq_zero_iff.1 size]
    exact .inl .nil
  | cons type rest ih =>
    obtain ⟨value, values, rfl⟩ := List.exists_cons_of_length_eq_add_one size
    by_cases takes : type.Takes value
    · rcases ih (by simpa using size) with fits | ⟨position, other, second, offends⟩
      · exact .inl (.cons takes fits)
      · refine .inr ⟨position + 1, other, second, ?_⟩
        refine ⟨offends.typeThere, offends.valueThere, offends.refused, ?_⟩
        intro earlier before one two here there
        cases earlier with
        | zero =>
          cases here
          cases there
          exact takes
        | succ earlier =>
          exact offends.first earlier (Nat.lt_of_succ_lt_succ before) one two here there
    · exact .inr ⟨0, type, value, rfl, rfl, takes, nofun⟩

end Rows

namespace Frame

section Checks

variable {fields : List Field} {row : List Value}

theorem checkValues_of_fits (fits : Fits (fields.map Field.type) row) (start : Nat) :
    checkValues start fields row = .ok () := by
  induction fields generalizing row start with
  | nil => rfl
  | cons field rest ih =>
    obtain ⟨value, values, takes, others, rfl⟩ := List.forall₂_cons_left_iff.1 fits
    have here : field.column.check value = .ok () := Column.check_of_takes takes
    rw [checkValues, here]
    exact ih others (start + 1)

theorem checkValues_of_offends {position : Nat} {type : FieldType} {value : Value}
    (offends : Offends (fields.map Field.type) row position type value) (start : Nat) :
    checkValues start fields row = .error (type.refusal (some (start + position)) value) := by
  induction fields generalizing row position start with
  | nil => cases offends.typeThere
  | cons field rest ih =>
    cases row with
    | nil => cases offends.valueThere
    | cons first values =>
      cases position with
      | zero =>
        obtain ⟨here, there, refused, -⟩ := offends
        cases here
        cases there
        have error : field.column.check value = .error (field.column.type.refusal none value) :=
          Column.check_of_not_takes refused
        rw [checkValues, error]
        exact congrArg Except.error (FieldType.atField_refusal start none _ value)
      | succ position =>
        have takes : field.type.Takes first := offends.first 0 (Nat.succ_pos _) _ _ rfl rfl
        have here : field.column.check first = .ok () := Column.check_of_takes takes
        have later : Offends (rest.map Field.type) values position type value := by
          refine ⟨offends.typeThere, offends.valueThere, offends.refused, ?_⟩
          intro earlier before
          exact offends.first (earlier + 1) (Nat.succ_lt_succ before)
        rw [checkValues, here]
        refine (ih later (start + 1)).trans ?_
        rw [Nat.add_right_comm, Nat.add_assoc]

variable {frame : Frame}

theorem checkRow_of_fits (fits : Fits frame.types row) : frame.checkRow row = .ok () := by
  have size : row.length = frame.fields.length := by
    rw [← fits.length_eq, types, List.length_map]
  rw [checkRow, if_neg (not_not_intro size)]
  exact checkValues_of_fits fits 0

/-- A row with a value for every field is refused for the first one that does not fit. -/
theorem checkRow_of_offends (size : row.length = frame.types.length) {position : Nat}
    {type : FieldType} {value : Value} (offends : Offends frame.types row position type value) :
    frame.checkRow row = .error (type.refusal (some position) value) := by
  have same : row.length = frame.fields.length := by rwa [types, List.length_map] at size
  rw [checkRow, if_neg (not_not_intro same), checkValues_of_offends offends 0, Nat.zero_add]

theorem checkRow_of_not_fits (misfit : ¬Fits frame.types row) :
    ∃ error, frame.checkRow row = .error error := by
  by_cases size : row.length = frame.types.length
  · rcases fits_or_offends size with fits | ⟨position, type, value, offends⟩
    · exact absurd fits misfit
    · exact ⟨_, checkRow_of_offends size offends⟩
  · have differ : row.length ≠ frame.fields.length := by rwa [types, List.length_map] at size
    exact ⟨_, if_pos differ⟩

end Checks

section Columns

variable {fields : List Field} {row : List Value} {change : Column → Value → Except Error Column}
  {edit : Value → List Value → List Value}

/-- What every column stores is stored in all of them, in place or at once. -/
theorem changeInPlace_of_fits (fits : Fits (fields.map Field.type) row)
    (stores : ∀ field ∈ fields, field.column.Stores change edit) (position : Nat) :
    ∃ changed, changeInPlace change position fields row = (changed, .done) ∧
      updateColumns change position fields row = .ok changed ∧
      changed.map Field.layout = fields.map Field.layout ∧
      changed.map (·.column.values) = List.zipWith edit row (fields.map (·.column.values)) := by
  induction fields generalizing row position with
  | nil =>
    cases fits
    exact ⟨[], rfl, rfl, rfl, rfl⟩
  | cons field rest ih =>
    obtain ⟨value, values, takes, others, rfl⟩ := List.forall₂_cons_left_iff.1 fits
    obtain ⟨column, made, type, edited⟩ := stores field (by simp) value takes
    obtain ⟨changed, ran, updated, layouts, lists⟩ :=
      ih others (fun other member => stores other (by simp [member])) (position + 1)
    refine ⟨field.withColumn column :: changed, ?_, ?_, ?_, ?_⟩
    · rw [changeInPlace, made]
      simp only [ran]
    · rw [updateColumns, made]
      simp only [updated, Except.map]
    · have here : (field.withColumn column).layout = field.layout := by
        simp only [Field.layout, Field.withColumn, Field.type, type]
      rw [List.map_cons, List.map_cons, here, layouts]
    · rw [List.map_cons, List.map_cons, List.zipWith_cons_cons, lists]
      exact congrArg (· :: _) edited

theorem eraseInPlace_of_lt {index : Nat} (inside : ∀ field ∈ fields, index < field.size) :
    ∃ changed, eraseInPlace index fields = (changed, .done) ∧
      eraseCells index fields = .ok changed ∧
      changed.map Field.layout = fields.map Field.layout ∧
      changed.map (·.column.values) =
        (fields.map (·.column.values)).map (·.eraseIdx index) := by
  induction fields with
  | nil => exact ⟨[], rfl, rfl, rfl, rfl⟩
  | cons field rest ih =>
    obtain ⟨value, column, erased, type, edited⟩ := Column.erase_of_lt (inside field (by simp))
    obtain ⟨changed, ran, updated, layouts, lists⟩ :=
      ih fun other member => inside other (by simp [member])
    refine ⟨field.withColumn column :: changed, ?_, ?_, ?_, ?_⟩
    · rw [eraseInPlace, erased]
      simp only [ran]
    · exact bind_eq_ok_iff.2 ⟨(value, column), erased, bind_eq_ok_iff.2 ⟨changed, updated, rfl⟩⟩
    · have here : (field.withColumn column).layout = field.layout := by
        simp only [Field.layout, Field.withColumn, Field.type, type]
      rw [List.map_cons, List.map_cons, here, layouts]
    · rw [List.map_cons, List.map_cons, List.map_cons, lists]
      exact congrArg (· :: _) edited

end Columns

section Calls

variable {frame : Frame} {row : List Value} {change : Column → Value → Except Error Column}
  {edit : Value → List Value → List Value}

/-- A frame as it would be after a step, and what is answered; a refused step leaves it alone. -/
def settle (frame : Frame) (step : Except Error Frame) : Frame × RowAnswer :=
  match step with
  | .ok after => (after, .done)
  | .error error => (frame, .refused error)

/-- A call as one step, made as a whole or not at all. -/
def commit (frame : Frame) : RowCall → Frame × RowAnswer
  | .append row => frame.settle (frame.appendRow row)
  | .insert index row => frame.settle (frame.insertRow index row)
  | .set index row => frame.settle (frame.setRow index row)
  | .erase index => frame.settle (frame.eraseRow index)
  | .extend count => (frame.extend count, .done)
  | .copy index =>
    match frame.row index with
    | .ok values => (frame, .row values)
    | .error error => (frame, .refused error)

theorem storeInPlace_of_fits (fits : Fits frame.types row)
    (stores : ∀ field ∈ frame.fields, field.column.Stores change edit) :
    ∃ changed, frame.storeInPlace row change = ({ frame with fields := changed }, .done) ∧
      frame.storeRow row change = .ok { frame with fields := changed } ∧
      changed.map Field.layout = frame.fields.map Field.layout ∧
      changed.map (·.column.values) = List.zipWith edit row (frame.fields.map (·.column.values)) := by
  have checked := checkRow_of_fits fits
  obtain ⟨changed, ran, updated, layouts, lists⟩ := changeInPlace_of_fits fits stores 0
  refine ⟨changed, ?_, ?_, layouts, lists⟩
  · rw [storeInPlace, checked]
    simp only [ran]
  · exact bind_eq_ok_iff.2 ⟨(), checked, bind_eq_ok_iff.2 ⟨changed, updated, rfl⟩⟩

theorem storeInPlace_of_not_fits (change : Column → Value → Except Error Column)
    (misfit : ¬Fits frame.types row) :
    ∃ error, frame.storeInPlace row change = (frame, .refused error) ∧
      frame.storeRow row change = .error error := by
  obtain ⟨error, checked⟩ := checkRow_of_not_fits misfit
  refine ⟨error, ?_, ?_⟩
  · rw [storeInPlace, checked]
  · rw [storeRow, checked]
    rfl

/-- A row stored in place is a row stored as a whole. -/
theorem storeInPlace_eq_settle (stores : ∀ field ∈ frame.fields, field.column.Stores change edit) :
    frame.storeInPlace row change = frame.settle (frame.storeRow row change) := by
  by_cases fits : Fits frame.types row
  · obtain ⟨changed, inPlace, whole, -⟩ := storeInPlace_of_fits fits stores
    rw [inPlace, whole, settle]
  · obtain ⟨error, inPlace, whole⟩ := storeInPlace_of_not_fits change fits
    rw [inPlace, whole, settle]

theorem eraseInPlace_eq_settle {index : Nat} (inside : ∀ field ∈ frame.fields, index < field.size) :
    (({ frame with fields := (eraseInPlace index frame.fields).1 } : Frame),
        (eraseInPlace index frame.fields).2) =
      frame.settle ((eraseCells index frame.fields).bind fun fields =>
        .ok { frame with fields }) := by
  obtain ⟨changed, inPlace, whole, -⟩ := eraseInPlace_of_lt inside
  rw [inPlace, whole]
  rfl

theorem performAt_eq_settle {index : Nat} {bound : Nat → Nat} {run : Frame × RowAnswer}
    {step : Except Error Frame}
    (same : ∀ count, (∀ field ∈ frame.fields, field.size = count) → index < bound count →
      run = frame.settle step) :
    frame.performAt index bound run =
      frame.settle (frame.rowCount.bind fun count =>
        if bound count ≤ index then .error (.indexOutOfRange index count) else step) := by
  cases counted : frame.rowCount with
  | error error =>
    rw [performAt, counted]
    rfl
  | ok count =>
    rw [performAt, counted, Except.bind]
    by_cases outside : bound count ≤ index
    · simp only [if_pos outside]
      rfl
    · simp only [if_neg outside]
      exact same count (rowCount_eq_ok_iff.1 counted).2 (Nat.lt_of_not_le outside)

/-- No call stops halfway: whatever it changes in place, it changes as a whole, on every frame. -/
theorem perform_eq_commit (frame : Frame) (call : RowCall) :
    frame.perform call = frame.commit call := by
  cases call with
  | append row => exact storeInPlace_eq_settle fun field _ => field.column.push_stores
  | insert index row =>
    apply performAt_eq_settle
    intro count even inside
    apply storeInPlace_eq_settle
    intro field member
    apply Column.insert_stores
    have size : field.column.size = count := even field member
    rw [size]
    exact Nat.le_of_lt_succ inside
  | set index row =>
    apply performAt_eq_settle
    intro count even inside
    apply storeInPlace_eq_settle
    intro field member
    apply Column.set_stores
    have size : field.column.size = count := even field member
    rwa [size]
  | erase index =>
    apply performAt_eq_settle
    intro count even inside
    apply eraseInPlace_eq_settle
    intro field member
    exact even field member ▸ inside
  | extend count => rfl
  | copy index => rfl

end Calls

/-! ## Calls on a table -/

section Table

variable {before after : Frame} {count : Nat}

/-- What a call does to a frame with rows: what the table grants is done and answered so, and
anything else is refused and leaves the frame as it was. -/
structure Follows (before : Frame) (call : RowCall) (after : Frame) (answer : RowAnswer) : Prop where
  layout : before.SameLayout after
  even : after.rowCount = .ok after.rows.length
  granted : ∀ rows result, call.Yields before.types before.rows rows result →
    after.rows = rows ∧ answer = result
  refused : (∀ rows result, ¬call.Yields before.types before.rows rows result) →
    after = before ∧ ∃ error, answer = .refused error

end Table

end Frame

end Columnar
