import Columnar.Column.Calls
import Columnar.Proofs.Columns
import Columnar.Proofs.Pivot.Rows

/-! Columns that are spoken to in values. Whatever calls are made, a column is a list of values of its
type: a call is granted when its index is in range and the type takes its value, it edits the list as
its name says, and a call that is not granted changes nothing. Extending adds values as long as a word
of the machine can hold the new length, and beyond that takes some away. The typed cells are never asked
for what they do not have, and their elements are the values that are read. -/
namespace Columnar

/-- The values of a column of a type after a call, and the answer; nothing where the call is not
granted. -/
def CellCall.grant? (type : FieldType) (values : List Value) :
    CellCall → Option (List Value × CellAnswer)
  | .set index value =>
    if index < values.length ∧ type.Takes value then some (values.set index value, .done) else none
  | .push value => if type.Takes value then some (values ++ [value], .done) else none
  | .insert index value =>
    if index ≤ values.length ∧ type.Takes value then some (values.insertIdx index value, .done)
    else none
  | .erase index => values[index]?.map fun value => (values.eraseIdx index, .value value)
  | .extend count => some (grown type.blank count values, .done)
  | .emptyCopy => some (values, .copy ⟨type, Cells.empty⟩)

/-- The values after a call, granted or not. -/
def CellCall.edit (type : FieldType) (values : List Value) (call : CellCall) : List Value :=
  ((call.grant? type values).map Prod.fst).getD values

namespace Column

variable {column : Column} {value : Value}

/-! ## A call as one step -/

/-- A column as it would be after a step, and what is answered; a refused step leaves it alone. -/
def settle (column : Column) (step : Except Error Column) : Column × CellAnswer :=
  match step with
  | .ok after => (after, .done)
  | .error error => (column, .refused error)

/-- A call as one step, made as a whole or not at all. -/
def commit (column : Column) : CellCall → Column × CellAnswer
  | .set index value => column.settle (column.set index value)
  | .push value => column.settle (column.push value)
  | .insert index value => column.settle (column.insert index value)
  | .erase index =>
    match column.erase index with
    | .ok (value, after) => (after, .value value)
    | .error error => (column, .refused error)
  | .extend count => (column.extend count, .done)
  | .emptyCopy => (column, .copy column.emptyCopy)

theorem checkIndex_of_lt {index bound : Nat} (inside : index < bound) :
    checkIndex index bound = .ok () := if_pos inside

theorem checkIndex_of_le {index bound : Nat} (outside : bound ≤ index) :
    checkIndex index bound = .error (.indexOutOfRange index bound) := if_neg (Nat.not_lt.2 outside)

/-- Where the typed cells have the place, a value is stored as a whole. -/
theorem storeInPlace_eq_settle {put : Cell column.type → Except CellFault (Cells column.type)}
    {stored : Cell column.type → Cells column.type} (puts : ∀ cell, put cell = .ok (stored cell)) :
    column.storeInPlace value put =
      column.settle ((Cell.ofValue column.type value).map fun cell => ⟨column.type, stored cell⟩) := by
  unfold storeInPlace
  cases Cell.ofValue column.type value with
  | error error => rfl
  | ok cell =>
    dsimp only
    rw [puts cell]
    rfl

/-- The typed cells are only asked for places that they have, on every column and for every call. -/
theorem perform_eq_commit (column : Column) (call : CellCall) :
    column.perform call = column.commit call := by
  cases call with
  | set index value =>
    by_cases inside : index < column.size
    · have puts : ∀ cell, column.cells.set index cell = .ok ⟨column.cells.toList.set index cell⟩ :=
        fun cell => if_pos inside
      rw [perform, performAt, checkIndex_of_lt inside, commit, set, checkIndex_of_lt inside]
      exact storeInPlace_eq_settle puts
    · rw [perform, performAt, checkIndex_of_le (Nat.le_of_not_lt inside), commit, set,
        checkIndex_of_le (Nat.le_of_not_lt inside)]
      rfl
  | push value => exact storeInPlace_eq_settle fun cell => rfl
  | insert index value =>
    by_cases inside : index < column.size + 1
    · have puts : ∀ cell, column.cells.insert index cell =
          .ok ⟨column.cells.toList.insertIdx index cell⟩ :=
        fun cell => if_pos (Nat.le_of_lt_succ inside)
      rw [perform, performAt, checkIndex_of_lt inside, commit, insert, checkIndex_of_lt inside]
      exact storeInPlace_eq_settle puts
    · rw [perform, performAt, checkIndex_of_le (Nat.le_of_not_lt inside), commit, insert,
        checkIndex_of_le (Nat.le_of_not_lt inside)]
      rfl
  | erase index =>
    by_cases inside : index < column.size
    · have here : column.cells.get? index = some column.cells.toList[index] :=
        List.getElem?_eq_getElem inside
      rw [perform, performAt, checkIndex_of_lt inside, commit, erase, get, get?, Cells.erase, here]
      rfl
    · have none : column.cells.get? index = none :=
        List.getElem?_eq_none (Nat.le_of_not_lt inside)
      rw [perform, performAt, checkIndex_of_le (Nat.le_of_not_lt inside), commit, erase, get, get?,
        none]
      rfl
  | extend count => rfl
  | emptyCopy => rfl

/-! ## Calls on a list of values -/

/-- What is done to a column when a call is granted. -/
structure Grants (column : Column) (call : CellCall) (values : List Value) (answer : CellAnswer) :
    Prop where
  type : (column.perform call).1.type = column.type
  values : (column.perform call).1.values = values
  answer : (column.perform call).2 = answer

theorem grants_of_stores {call : CellCall} {change : Column → Value → Except Error Column}
    {edit : Value → List Value → List Value} (stores : Stores change edit column)
    (committed : column.commit call = column.settle (change column value))
    (takes : column.type.Takes value) : column.Grants call (edit value column.values) .done := by
  obtain ⟨after, changed, type, values⟩ := stores value takes
  have ran : column.perform call = (after, .done) := by
    rw [perform_eq_commit, committed, changed, settle]
  exact ⟨by rw [ran, type], by rw [ran, values], by rw [ran]⟩

/-- A call that the list of values grants is made as it says. -/
theorem perform_of_granted {call : CellCall} {values : List Value} {answer : CellAnswer}
    (granted : call.grant? column.type column.values = some (values, answer)) :
    column.Grants call values answer := by
  cases call with
  | set index value =>
    simp only [CellCall.grant?, length_values] at granted
    split at granted
    next fits =>
      cases granted
      exact grants_of_stores (set_stores fits.1) rfl fits.2
    next => cases granted
  | push value =>
    simp only [CellCall.grant?] at granted
    split at granted
    next takes =>
      cases granted
      exact grants_of_stores column.push_stores rfl takes
    next => cases granted
  | insert index value =>
    simp only [CellCall.grant?, length_values] at granted
    split at granted
    next fits =>
      cases granted
      exact grants_of_stores (insert_stores fits.1) rfl fits.2
    next => cases granted
  | erase index =>
    obtain ⟨value, here, same⟩ := Option.map_eq_some_iff.1 granted
    cases same
    have inside : index < column.size := by
      rw [← length_values]
      exact (List.getElem?_eq_some_iff.1 here).1
    obtain ⟨found, shorter, erased, type, edited⟩ := erase_of_lt inside
    have read : column.get index = .ok found := by
      obtain ⟨other, read, rest⟩ := bind_eq_ok_iff.1 erased
      cases rest
      exact read
    rw [get, get?_eq_values, here] at read
    cases read
    have ran : column.perform (.erase index) = (shorter, .value value) := by
      rw [perform_eq_commit, commit, erased]
    exact ⟨by rw [ran, type], by rw [ran, edited], by rw [ran]⟩
  | extend count =>
    cases granted
    exact ⟨rfl, column.values_extend count, rfl⟩
  | emptyCopy =>
    cases granted
    exact ⟨rfl, rfl, rfl⟩

theorem perform_of_refused {call : CellCall} {error : Error} {change : Except Error Column}
    (committed : column.commit call = column.settle change) (refused : change = .error error) :
    column.perform call = (column, .refused error) := by
  rw [perform_eq_commit, committed, refused, settle]

/-- A call that the list of values does not grant is refused, and the column stays as it was. -/
theorem perform_of_not_granted {call : CellCall}
    (missing : call.grant? column.type column.values = none) :
    ∃ error, column.perform call = (column, .refused error) := by
  cases call with
  | set index value =>
    by_cases inside : index < column.size
    · have refused : ¬column.type.Takes value := by
        intro takes
        simp [CellCall.grant?, length_values, takes] at missing
        omega
      refine ⟨column.type.refusal none value, perform_of_refused rfl ?_⟩
      rw [set, checkIndex_of_lt inside, Cell.ofValue_of_not_takes refused]
      rfl
    · refine ⟨.indexOutOfRange index column.size, perform_of_refused rfl ?_⟩
      rw [set, checkIndex_of_le (Nat.le_of_not_lt inside)]
      rfl
  | push value =>
    have refused : ¬column.type.Takes value := by
      intro takes
      simp [CellCall.grant?, takes] at missing
    refine ⟨column.type.refusal none value, perform_of_refused rfl ?_⟩
    rw [push, Cell.ofValue_of_not_takes refused]
    rfl
  | insert index value =>
    by_cases inside : index ≤ column.size
    · have refused : ¬column.type.Takes value := by
        intro takes
        simp [CellCall.grant?, length_values, takes] at missing
        omega
      refine ⟨column.type.refusal none value, perform_of_refused rfl ?_⟩
      rw [insert, checkIndex_of_lt (Nat.lt_succ_of_le inside), Cell.ofValue_of_not_takes refused]
      rfl
    · refine ⟨.indexOutOfRange index (column.size + 1), perform_of_refused rfl ?_⟩
      rw [insert, checkIndex_of_le (Nat.lt_of_not_le inside)]
      rfl
  | erase index =>
    have beyond : column.values[index]? = none := Option.map_eq_none_iff.1 missing
    refine ⟨.indexOutOfRange index column.size, ?_⟩
    rw [perform_eq_commit, commit, erase, get, get?_eq_values, beyond]
    rfl
  | extend count => cases missing
  | emptyCopy => cases missing

/-! ## Runs -/

/-- What can be read of a column: by index, checked or not, one value after the other, and through the
typed cells, which are there for its type and no other. -/
structure Reads (column : Column) (values : List Value) : Prop where
  size : column.size = values.length
  get? : ∀ index, column.get? index = values[index]?
  inside : ∀ index value, values[index]? = some value → column.get index = .ok value
  beyond : ∀ index, values.length ≤ index →
    column.get index = .error (.indexOutOfRange index values.length)
  iterated : (List.range column.size).filterMap column.get? = values
  typed : ∀ type, (column.typed? type).isSome = true ↔ column.type = type
  cells : ∀ type cells, column.typed? type = some cells → cells.size = values.length ∧
    ∀ index value, values[index]? = some value →
      ∃ cell, cells.get? index = some cell ∧ ∀ other : Cell type, other.value = value ↔ other = cell

theorem reads_values (column : Column) : column.Reads column.values where
  size := column.length_values.symm
  get? := column.get?_eq_values
  inside index value here := by rw [get, get?_eq_values, here]
  beyond index outside := by
    rw [get, get?_eq_values, List.getElem?_eq_none outside, length_values]
  iterated := by
    have looked : column.get? = (column.values[·]?) := funext column.get?_eq_values
    rw [← length_values, looked]
    exact pick_range column.values
  typed type := by
    rw [typed?]
    split
    next same => simp [same]
    next differ => simp [differ]
  cells type cells found := by
    rw [typed?] at found
    split at found
    next same =>
      subst same
      cases found
      refine ⟨column.length_values.symm, fun index value here => ?_⟩
      rw [← get?_eq_values, get?] at here
      obtain ⟨cell, there, rfl⟩ := Option.map_eq_some_iff.1 here
      exact ⟨cell, there, fun other => ⟨Cell.eq_of_value, fun same => same ▸ rfl⟩⟩
    next => cases found

/-- What the holder of a column can rely on. The check accepts the values that the type takes, and what
it says of the others is what storing them says, wherever there is a place; a call does what it does to
the list of values, and otherwise nothing; no call differs from the operation that gives a new column;
and extending adds its blanks just where a word can hold the new length. -/
structure Faithful (column : Column) : Prop where
  reads : column.Reads column.values
  check_iff : ∀ value, column.check value = .ok () ↔ column.type.Takes value
  granted : ∀ call values answer,
    call.grant? column.type column.values = some (values, answer) → column.Grants call values answer
  refused : ∀ call, call.grant? column.type column.values = none →
    ∃ error, column.perform call = (column, .refused error)
  rejected : ∀ value error, column.check value = .error error →
    column.perform (.push value) = (column, .refused error) ∧
    (∀ index < column.size, column.perform (.set index value) = (column, .refused error)) ∧
    ∀ index ≤ column.size, column.perform (.insert index value) = (column, .refused error)
  committed : ∀ call, column.perform call = column.commit call
  extended : ∀ count, (column.perform (.extend count)).1.values =
    column.values ++ List.replicate count.toNat column.type.blank ↔
      column.size + count.toNat < UInt64.size

theorem check_eq_ok_iff : column.check value = .ok () ↔ column.type.Takes value := by
  refine ⟨fun checked => ?_, check_of_takes⟩
  by_contra refused
  rw [check_of_not_takes refused] at checked
  cases checked

/-- The check gives the reason for which a value would not be stored. -/
theorem ofValue_of_check {error : Error} (checked : column.check value = .error error) :
    Cell.ofValue column.type value = .error error := by
  rw [check_eq_ofValue] at checked
  cases made : Cell.ofValue column.type value with
  | ok cell =>
    rw [made] at checked
    cases checked
  | error other =>
    rw [made] at checked
    cases checked
    rfl

theorem faithful (column : Column) : column.Faithful where
  reads := column.reads_values
  check_iff _ := check_eq_ok_iff
  granted _ _ _ := perform_of_granted
  refused _ := perform_of_not_granted
  rejected value error checked := by
    have refused := ofValue_of_check checked
    refine ⟨perform_of_refused rfl ?_, fun index inside => perform_of_refused rfl ?_,
      fun index inside => perform_of_refused rfl ?_⟩
    · rw [push, refused]
      rfl
    · rw [set, checkIndex_of_lt inside, refused]
      rfl
    · rw [insert, checkIndex_of_lt (Nat.lt_succ_of_le inside), refused]
      rfl
  committed := column.perform_eq_commit
  extended count := by
    rw [← length_values, ← grown_eq_append_iff, ← values_extend]
    rfl

/-- A level that is corrected, a null that is not taken, and a removal. -/
example : (performAll ⟨⟨.int8, false⟩, ⟨[Cell.of (1 : Int8), Cell.of (2 : Int8)]⟩⟩
      [.set 1 (.of .int8 (5 : Int8)), .push .null, .insert 0 (.of .int8 (9 : Int8)), .erase 1,
        .extend 1]).values =
    [.of .int8 (9 : Int8), .of .int8 (5 : Int8), .of .int8 (0 : Int8)] := rfl

end Column

end Columnar
