import Columnar.Frame.Filtering
import Columnar.Proofs.Frame.Table
import Columnar.Proofs.InPlace

/-! Filtering keeps rows. The cells of one field are asked about one after the other; when all are
answered, the rows whose answer holds are kept as they are, in their order, and the first refusal is the
only outcome of those that follow. Where the answers depend on nothing but the value, filters can be
exchanged, and a second one with the same predicate changes nothing. -/
namespace Columnar

/-- The items whose answer holds. -/
def whereTrue {α : Type} (items : List α) (answers : List Bool) : List α :=
  ((items.zip answers).filter Prod.snd).map Prod.fst

/-- The places, counted from one on, of the answers that hold. -/
def placesWhereTrue : Nat → List Bool → List Nat
  | _, [] => []
  | place, true :: rest => place :: placesWhereTrue (place + 1) rest
  | place, false :: rest => placesWhereTrue (place + 1) rest

theorem mem_placesWhereTrue {place start : Nat} {answers : List Bool}
    (member : place ∈ placesWhereTrue start answers) : place < start + answers.length := by
  fun_induction placesWhereTrue start answers with
  | case1 => cases member
  | case2 start rest ih =>
    rw [List.length_cons]
    rcases List.mem_cons.1 member with rfl | later
    · omega
    · have := ih later
      omega
  | case3 start rest ih =>
    rw [List.length_cons]
    have := ih member
    omega

/-- The items at the places where the answer holds. -/
theorem pick_placesWhereTrue {α : Type} (before items : List α) (answers : List Bool)
    (size : answers.length = items.length) :
    pick (before ++ items) (placesWhereTrue before.length answers) = whereTrue items answers := by
  induction answers generalizing before items with
  | nil => simp [placesWhereTrue, pick, whereTrue]
  | cons holds rest ih =>
    obtain ⟨item, others, rfl⟩ := List.exists_cons_of_length_eq_add_one size.symm
    have later := ih (before ++ [item]) others (by simpa using size)
    rw [List.append_assoc, List.length_append] at later
    cases holds with
    | false => exact later
    | true =>
      have here : (before ++ item :: others)[before.length]? = some item := by simp
      rw [placesWhereTrue, pick, List.filterMap_cons_some here]
      exact congrArg (item :: ·) later

/-- Items of which a predicate is asked. -/
theorem whereTrue_map {α : Type} (items : List α) (holds : α → Bool) :
    whereTrue items (items.map holds) = items.filter holds := by
  induction items with
  | nil => rfl
  | cons item rest ih =>
    have later : whereTrue (item :: rest) ((item :: rest).map holds) =
        if holds item then item :: whereTrue rest (rest.map holds)
        else whereTrue rest (rest.map holds) := by
      cases here : holds item <;> simp [whereTrue, here]
    rw [later, ih, List.filter_cons]

/-- Whether a predicate holds for a value; one that refuses it does not. -/
def holdsFor (predicate : Value → Except Error Bool) (value : Value) : Bool :=
  match predicate value with
  | .ok holds => holds
  | .error _ => false

section Asking

variable {σ : Type} {ask : Value → InPlace σ Bool}

/-- All of some values are answered, one after the other, each from the state that the one before it
has left. -/
inductive Answered (ask : Value → InPlace σ Bool) : σ → List Value → List Bool → σ → Prop
  | nothing (now : σ) : Answered ask now [] [] now
  | next {now between after : σ} {value : Value} {holds : Bool} {values : List Value}
    {answers : List Bool} (here : (ask value).runOn now = (.ok holds, between))
    (later : Answered ask between values answers after) :
    Answered ask now (value :: values) (holds :: answers) after

/-- One of some values is refused after those before it were answered; those behind it are not asked
about. -/
inductive Refuses (ask : Value → InPlace σ Bool) : σ → List Value → Error → σ → Prop
  | here {now after : σ} {value : Value} {error : Error} {values : List Value}
    (refused : (ask value).runOn now = (.error error, after)) :
    Refuses ask now (value :: values) error after
  | later {now between after : σ} {value : Value} {holds : Bool} {error : Error}
    {values : List Value} (answered : (ask value).runOn now = (.ok holds, between))
    (refused : Refuses ask between values error after) :
    Refuses ask now (value :: values) error after

theorem answered_or_refuses (ask : Value → InPlace σ Bool) (now : σ) (values : List Value) :
    (∃ answers after, Answered ask now values answers after) ∨
      ∃ error after, Refuses ask now values error after := by
  induction values generalizing now with
  | nil => exact .inl ⟨_, _, .nothing now⟩
  | cons value rest ih =>
    match run : (ask value).runOn now with
    | (.error _, _) => exact .inr ⟨_, _, .here run⟩
    | (.ok _, between) =>
      rcases ih between with ⟨_, _, later⟩ | ⟨_, _, later⟩
      · exact .inl ⟨_, _, .next run later⟩
      · exact .inr ⟨_, _, .later run later⟩

theorem Answered.length {now after : σ} {values : List Value} {answers : List Bool}
    (answered : Answered ask now values answers after) : answers.length = values.length := by
  induction answered with
  | nothing => rfl
  | next _ _ ih => rw [List.length_cons, List.length_cons, ih]

/-- Without a state, values are answered by what is said of each. -/
theorem answered_check {predicate : Value → Except Error Bool} (now : σ) {values : List Value}
    (total : ∀ value ∈ values, ∃ holds, predicate value = .ok holds) :
    Answered (fun value => InPlace.check (predicate value)) now values
      (values.map (holdsFor predicate)) now := by
  induction values with
  | nil => exact .nothing now
  | cons value rest ih =>
    obtain ⟨holds, here⟩ := total value (by simp)
    rw [List.map_cons, holdsFor, here]
    refine .next ?_ (ih fun other member => total other (by simp [member]))
    rw [here]
    rfl

end Asking

namespace Column

/-- A cell appended to those selected is selected, too. -/
theorem push_selectCells {column : Column} {row : Nat} (inside : row < column.size)
    (rows : List Nat) : ∃ value, column.get row = .ok value ∧
      (Frame.selectCells column rows).push value = .ok (Frame.selectCells column (rows ++ [row])) := by
  have here : column.cells.get? row = some column.cells.toList[row] :=
    List.getElem?_eq_getElem inside
  refine ⟨column.cells.toList[row].value, by rw [get, get?, here]; rfl, ?_⟩
  refine bind_eq_ok_iff.2 ⟨column.cells.toList[row], Cell.ofValue_value _, ?_⟩
  have appended : rows.filterMap column.cells.get? ++ [column.cells.toList[row]] =
      (rows ++ [row]).filterMap column.cells.get? := by simp [here]
  exact congrArg (fun cells => Except.ok (Column.mk column.type ⟨cells⟩)) appended

end Column

namespace Frame

open InPlace (check)

/-- A field with its cells at some rows and without its configuration. -/
def selected (rows : List Nat) (field : Field) : Field :=
  { field.emptyCopy with column := selectCells field.column rows }

/-- A frame with some of its rows, without configurations, metadata and warnings. -/
def keeping (frame : Frame) (rows : List Nat) : Frame :=
  { frame.emptyCopy with fields := frame.fields.map (selected rows) }

/-- What a frame is of which some rows are kept. -/
structure Keeps (frame : Frame) (rows : List (List Value)) (kept : Frame) : Prop where
  name : kept.name = frame.name
  refId : kept.refId = frame.refId
  info : kept.info = none
  warnings : kept.warnings = []
  layout : kept.fields.map Field.layout =
    frame.fields.map fun field => (field.name, field.labels, none, field.type)
  counted : kept.rowCount = .ok rows.length
  rows : kept.rows = rows

variable {σ : Type} {ask : Value → InPlace σ Bool} {now after : σ} {frame kept : Frame}
variable {source : Field} {fields : List Field} {column : Column} {index count row : Nat}
variable {rows : List Nat} {before values : List Value} {answers : List Bool} {error : Error}

/-! ## The loop over the rows -/

/-- Appending a row to the selected ones selects it. -/
theorem appendCells_selected (inside : ∀ field ∈ fields, row < field.column.size)
    (rows : List Nat) : appendCells row (fields.map (selected rows)) fields =
      .ok (fields.map (selected (rows ++ [row]))) := by
  induction fields with
  | nil => rfl
  | cons field rest ih =>
    obtain ⟨value, here, pushed⟩ := Column.push_selectCells (inside field (by simp)) rows
    have later := ih fun other member => inside other (by simp [member])
    refine bind_eq_ok_iff.2 ⟨value, here, bind_eq_ok_iff.2 ⟨_, pushed, bind_eq_ok_iff.2
      ⟨_, later, rfl⟩⟩⟩

section Loop

variable (even : ∀ field ∈ fields, field.column.size = column.size)

include even

/-- A row is asked about; when the answer holds it is selected before the next one is asked about. -/
theorem runOn_filterFrom_succ {value : Value} (same : column.values = before ++ value :: values)
    (rows : List Nat) :
    (filterFrom ask column fields before.length (values.length + 1)
        (fields.map (selected rows))).runOn now =
      match (ask value).runOn now with
      | (.ok holds, between) => (filterFrom ask column fields (before.length + 1) values.length
          (fields.map (selected (if holds then rows ++ [before.length] else rows)))).runOn between
      | (.error error, after) => (.error error, after) := by
  have here : column.get before.length = .ok value := by
    rw [Column.get, Column.get?_eq_values, same]
    simp
  have inside : ∀ field ∈ fields, before.length < field.column.size := by
    intro field member
    rw [even field member, ← Column.length_values, same]
    simp
  rw [filterFrom, InPlace.runOn_check_bind, here]
  dsimp only
  rw [InPlace.runOn_bind]
  obtain ⟨error | holds, between⟩ := (ask value).runOn now
  · rfl
  · cases holds with
    | false => rfl
    | true =>
      dsimp only
      rw [InPlace.runOn_check_bind, if_pos rfl, if_pos rfl, appendCells_selected inside]

/-- When all cells are answered, the rows whose answer holds are selected. -/
theorem runOn_filterFrom_of_answered (answered : Answered ask now values answers after)
    (before : List Value) (same : column.values = before ++ values) (rows : List Nat) :
    (filterFrom ask column fields before.length values.length (fields.map (selected rows))).runOn now =
      (.ok (fields.map (selected (rows ++ placesWhereTrue before.length answers))), after) := by
  induction answered generalizing before rows with
  | nothing now =>
    rw [placesWhereTrue, List.append_nil]
    rfl
  | @next now between after value holds rest answers here later ih =>
    have step := ih (before ++ [value]) (by simp [same])
    rw [List.length_append, List.length_singleton] at step
    rw [List.length_cons, runOn_filterFrom_succ even same, here]
    dsimp only
    rw [step]
    cases holds with
    | false => rfl
    | true => rw [if_pos rfl, List.append_assoc, List.singleton_append, placesWhereTrue]

/-- When a cell is refused, so is the filter, and nothing more is asked. -/
theorem runOn_filterFrom_of_refuses (refuses : Refuses ask now values error after)
    (before : List Value) (same : column.values = before ++ values) (rows : List Nat) :
    (filterFrom ask column fields before.length values.length (fields.map (selected rows))).runOn now =
      (.error error, after) := by
  induction refuses generalizing before rows with
  | here refused => rw [List.length_cons, runOn_filterFrom_succ even same, refused]
  | @later now between after value holds error rest answered refused ih =>
    have step := ih (before ++ [value]) (by simp [same])
    rw [List.length_append, List.length_singleton] at step
    rw [List.length_cons, runOn_filterFrom_succ even same, answered]
    exact step _

/-- What depends on nothing but the value may be asked of all cells beforehand. -/
theorem runOn_filterFrom_check (predicate : Value → Except Error Bool) (now : σ)
    (before : List Value) (same : column.values = before ++ values) (rows : List Nat) :
    (filterFrom (fun value => check (predicate value)) column fields before.length values.length
        (fields.map (selected rows))).runOn now =
      match matchingRows predicate column before.length values.length with
      | .ok matching => (.ok (fields.map (selected (rows ++ matching))), now)
      | .error error => (.error error, now) := by
  induction values generalizing before rows with
  | nil =>
    change _ = (Except.ok (fields.map (selected (rows ++ []))), now)
    rw [List.append_nil]
    rfl
  | cons value rest ih =>
    have step := ih (before ++ [value]) (by simp [same])
    rw [List.length_append, List.length_singleton] at step
    have here : column.get before.length = .ok value := by
      rw [Column.get, Column.get?_eq_values, same]
      simp
    have asked : (check (predicate value) : InPlace σ Bool).runOn now = (predicate value, now) := by
      cases predicate value <;> rfl
    rw [List.length_cons, runOn_filterFrom_succ even same, asked, matchingRows, here]
    simp only [bind, Except.bind]
    cases predicate value with
    | error error => rfl
    | ok holds =>
      dsimp only
      rw [step]
      cases matchingRows predicate column (before.length + 1) rest.length with
      | error error => rfl
      | ok matching => cases holds <;> simp [pure, Except.pure]

end Loop

/-! ## The filter as a whole -/

section Counted

variable (counted : frame.rowCount = .ok count)

include counted

theorem length_values_of_counted (here : frame.fields[index]? = some source) :
    source.column.values.length = count := by
  rw [Column.length_values]
  exact (rowCount_eq_ok_iff.1 counted).2 source (List.mem_of_getElem? here)

theorem even_of_counted (here : frame.fields[index]? = some source) :
    ∀ field ∈ frame.fields, field.column.size = source.column.size := by
  have even := (rowCount_eq_ok_iff.1 counted).2
  exact fun field member => (even field member).trans (even source (List.mem_of_getElem? here)).symm

theorem runOn_filterAsking (here : frame.fields[index]? = some source) :
    (frame.filterAsking index ask).runOn now =
      match (filterFrom ask source.column frame.fields 0 source.column.values.length
        (frame.fields.map (selected []))).runOn now with
      | (.ok fields, after) => (.ok { frame.emptyCopy with fields }, after)
      | (.error error, after) => (.error error, after) := by
  have found : frame.field index = .ok source := by rw [field, here]
  rw [filterAsking, InPlace.runOn_check_bind, counted]
  dsimp only
  rw [InPlace.runOn_check_bind, found, length_values_of_counted counted here]
  dsimp only
  rw [InPlace.runOn_bind]
  have start : frame.emptyCopy.fields = frame.fields.map (selected []) := rfl
  rw [start]
  obtain ⟨error | kept, after⟩ :=
    (filterFrom ask source.column frame.fields 0 count (frame.fields.map (selected []))).runOn now
  · rfl
  · rfl

theorem runOn_filterAsking_of_answered (here : frame.fields[index]? = some source)
    (answered : Answered ask now source.column.values answers after) :
    (frame.filterAsking index ask).runOn now =
      (.ok (frame.keeping (placesWhereTrue 0 answers)), after) := by
  have ran := runOn_filterFrom_of_answered (even_of_counted counted here) answered [] rfl []
  rw [runOn_filterAsking counted here]
  rw [List.length_nil, List.nil_append] at ran
  rw [ran]
  rfl

theorem runOn_filterAsking_of_refuses (here : frame.fields[index]? = some source)
    (refuses : Refuses ask now source.column.values error after) :
    (frame.filterAsking index ask).runOn now = (.error error, after) := by
  have ran := runOn_filterFrom_of_refuses (even_of_counted counted here) refuses [] rfl []
  rw [runOn_filterAsking counted here]
  rw [List.length_nil] at ran
  rw [ran]

/-- The values of a field are what the rows have at its position. -/
theorem values_eq_rows (here : frame.fields[index]? = some source) :
    source.column.values = frame.rows.map fun row => row[index]?.getD .null := by
  have size := length_values_of_counted counted here
  apply List.ext_getElem?
  intro place
  rw [List.getElem?_map, rows_of_rowCount counted]
  by_cases inside : place < count
  · rw [getElem?_rowsOf (values_even counted) inside, Option.map_some, List.getElem?_map,
      List.getElem?_map, here, Option.map_some, Option.map_some, Option.getD_some,
      List.getElem?_eq_getElem (size.symm ▸ inside), Option.getD_some]
  · rw [List.getElem?_eq_none (by omega), List.getElem?_eq_none, Option.map_none]
    rw [length_rowsOf (values_even counted)]
    omega

omit counted in
/-- Columns of which the same places are picked have the rows at these places. -/
theorem rowsOf_pick {columns : List (List Value)} (even : ∀ values ∈ columns, values.length = count)
    (inside : ∀ row ∈ rows, row < count) :
    rowsOf rows.length (columns.map (pick · rows)) = pick (rowsOf count columns) rows := by
  induction columns with
  | nil =>
    have size : (List.replicate count ([] : List Value)).length = count := List.length_replicate
    symm
    rw [List.map_nil, rowsOf, rowsOf, List.eq_replicate_iff, length_pick (size.symm ▸ inside)]
    refine ⟨rfl, fun row member => ?_⟩
    obtain ⟨place, -, here⟩ := List.mem_filterMap.1 member
    exact List.eq_of_mem_replicate (List.mem_of_getElem? here)
  | cons values rest ih =>
    have evenRest : ∀ other ∈ rest, other.length = count := fun other member =>
      even other (by simp [member])
    have size : values.length = count := even values (by simp)
    rw [List.map_cons, rowsOf, rowsOf, ih evenRest]
    apply pick_zipWith
    · rw [length_rowsOf evenRest, size]
    · exact size.symm ▸ inside

theorem keeps_keeping (size : answers.length = count) :
    frame.Keeps (whereTrue frame.rows answers) (frame.keeping (placesWhereTrue 0 answers)) := by
  have inside : ∀ row ∈ placesWhereTrue 0 answers, row < count := by
    intro row member
    have := mem_placesWhereTrue member
    omega
  have picked : pick frame.rows (placesWhereTrue 0 answers) = whereTrue frame.rows answers :=
    pick_placesWhereTrue [] frame.rows answers (by rw [size, length_rows counted])
  have sizes : ∀ field ∈ (frame.keeping (placesWhereTrue 0 answers)).fields,
      field.column.size = (placesWhereTrue 0 answers).length := by
    intro field member
    obtain ⟨source, inFrame, rfl⟩ := List.mem_map.1 member
    apply size_selectCells
    rwa [(rowCount_eq_ok_iff.1 counted).2 source inFrame]
  have keptCounted : (frame.keeping (placesWhereTrue 0 answers)).rowCount =
      .ok (placesWhereTrue 0 answers).length :=
    rowCount_eq_ok_iff.2 ⟨by simpa [keeping] using (rowCount_eq_ok_iff.1 counted).1, sizes⟩
  have keptRows : (frame.keeping (placesWhereTrue 0 answers)).rows = whereTrue frame.rows answers := by
    have columns : (frame.keeping (placesWhereTrue 0 answers)).fields.map (·.column.values) =
        (frame.fields.map (·.column.values)).map (pick · (placesWhereTrue 0 answers)) := by
      rw [keeping, List.map_map, List.map_map]
      exact List.map_congr_left fun field _ => values_selectCells ..
    rw [rows_of_rowCount keptCounted, columns, rowsOf_pick (values_even counted) inside,
      ← rows_of_rowCount counted, picked]
  refine ⟨rfl, rfl, rfl, rfl, ?_, ?_, keptRows⟩
  · rw [keeping, List.map_map]
    rfl
  · rw [keptCounted, ← picked, length_pick]
    rwa [length_rows counted]

/-- A filter whose predicate depends on nothing but the value. -/
theorem runOn_filterAsking_check (here : frame.fields[index]? = some source)
    (predicate : Value → Except Error Bool) :
    (frame.filterAsking index fun value => check (predicate value)).runOn now =
      (frame.filterRows index predicate, now) := by
  have all : source.column.values = [] ++ source.column.values := rfl
  have ran := runOn_filterFrom_check (even_of_counted counted here) predicate now [] all []
  have found : frame.field index = .ok source := by rw [field, here]
  rw [List.length_nil] at ran
  rw [runOn_filterAsking counted here, ran, filterRows, counted, found]
  simp only [bind, Except.bind, length_values_of_counted counted here]
  cases matchingRows predicate source.column 0 count with
  | error error => rfl
  | ok matching => rfl

end Counted

/-- Nothing but the value counts, whether the frame can be filtered or not. -/
theorem runOn_filterAsking_eq_filterRows (frame : Frame) (index : Nat)
    (predicate : Value → Except Error Bool) (now : σ) :
    (frame.filterAsking index fun value => check (predicate value)).runOn now =
      (frame.filterRows index predicate, now) := by
  cases counted : frame.rowCount with
  | error error =>
    rw [filterAsking, InPlace.runOn_check_bind, counted, filterRows, counted]
    rfl
  | ok count =>
    cases here : frame.fields[index]? with
    | some source => exact runOn_filterAsking_check counted here predicate
    | none =>
      have missing : frame.field index = .error (.indexOutOfRange index frame.fields.length) := by
        rw [field, here]
      rw [filterAsking, InPlace.runOn_check_bind, counted]
      dsimp only
      rw [InPlace.runOn_check_bind, filterRows, counted, missing]
      rfl

namespace Keeps

variable {first second : List (List Value)} {one other : Frame}

/-- What is kept is determined. -/
theorem unique (keptOne : frame.Keeps first one) (keptOther : frame.Keeps first other) :
    one = other := by
  have layouts := keptOne.layout.trans keptOther.layout.symm
  have fields : one.fields = other.fields := by
    apply List.ext_getElem?
    intro index
    have here := congrArg (·[index]?) layouts
    simp only [List.getElem?_map] at here
    cases atOne : one.fields[index]? with
    | none =>
      rw [atOne, Option.map_none] at here
      exact (Option.map_eq_none_iff.1 here.symm).symm
    | some field =>
      cases atOther : other.fields[index]? with
      | none => simp [atOne, atOther] at here
      | some also =>
        have same : field.layout = also.layout := by simpa [atOne, atOther] using here
        simp only [Field.layout, Prod.mk.injEq] at same
        obtain ⟨name, labels, config, type⟩ := same
        have values : field.column.values = also.column.values := by
          rw [values_eq_rows keptOne.counted atOne, values_eq_rows keptOther.counted atOther,
            keptOne.rows, keptOther.rows]
        have column := Column.eq_of_values type values
        obtain ⟨fieldName, fieldLabels, fieldConfig, fieldColumn⟩ := field
        obtain ⟨alsoName, alsoLabels, alsoConfig, alsoColumn⟩ := also
        dsimp only at name labels config column
        rw [name, labels, config, column]
  obtain ⟨name, refId, _, info, warnings⟩ := one
  obtain ⟨otherName, otherRefId, _, otherInfo, otherWarnings⟩ := other
  have names : name = otherName := keptOne.name.trans keptOther.name.symm
  have refIds : refId = otherRefId := keptOne.refId.trans keptOther.refId.symm
  have infos : info = otherInfo := keptOne.info.trans keptOther.info.symm
  have allWarnings : warnings = otherWarnings := keptOne.warnings.trans keptOther.warnings.symm
  dsimp only at fields
  rw [names, refIds, infos, allWarnings, fields]

/-- What is kept of what is kept. -/
theorem trans (before : frame.Keeps first one) (next : one.Keeps second other) :
    frame.Keeps second other := by
  refine ⟨next.name.trans before.name, next.refId.trans before.refId, next.info, next.warnings, ?_,
    next.counted, next.rows⟩
  have layout := congrArg (List.map fun (name, labels, _, type) =>
    ((name, labels, none, type) : String × Labels × Option FieldConfig × FieldType)) before.layout
  rw [List.map_map, List.map_map] at layout
  exact next.layout.trans layout

end Keeps

/-- What a filter keeps, with every cell of its field answered. -/
theorem runOn_filterAsking_eq_ok_iff (counted : frame.rowCount = .ok count)
    (here : frame.fields[index]? = some source) :
    (frame.filterAsking index ask).runOn now = (.ok kept, after) ↔
      ∃ answers, Answered ask now source.column.values answers after ∧
        frame.Keeps (whereTrue frame.rows answers) kept := by
  have keeps {answers : List Bool} {after : σ}
      (answered : Answered ask now source.column.values answers after) :=
    keeps_keeping counted (answered.length.trans (length_values_of_counted counted here))
  constructor
  · intro ran
    rcases answered_or_refuses ask now source.column.values with
      ⟨answers, _, answered⟩ | ⟨error, _, refuses⟩
    · rw [runOn_filterAsking_of_answered counted here answered] at ran
      cases ran
      exact ⟨answers, answered, keeps answered⟩
    · rw [runOn_filterAsking_of_refuses counted here refuses] at ran
      cases ran
  · rintro ⟨answers, answered, keptRows⟩
    rw [runOn_filterAsking_of_answered counted here answered, keptRows.unique (keeps answered)]

/-- A filter is refused as a cell of its field is, the first one. -/
theorem runOn_filterAsking_eq_error_iff (counted : frame.rowCount = .ok count)
    (here : frame.fields[index]? = some source) :
    (frame.filterAsking index ask).runOn now = (.error error, after) ↔
      Refuses ask now source.column.values error after := by
  refine ⟨fun ran => ?_, runOn_filterAsking_of_refuses counted here⟩
  rcases answered_or_refuses ask now source.column.values with
    ⟨answers, _, answered⟩ | ⟨error, _, refuses⟩
  · rw [runOn_filterAsking_of_answered counted here answered] at ran
    cases ran
  · rw [runOn_filterAsking_of_refuses counted here refuses] at ran
    cases ran
    exact refuses

/-! ## Predicates of values alone -/

section Predicates

variable {predicate other : Value → Except Error Bool}

/-- A predicate that answers for every cell keeps the rows that it holds for. -/
theorem exists_filterRows (counted : frame.rowCount = .ok count)
    (here : frame.fields[index]? = some source)
    (total : ∀ value ∈ source.column.values, ∃ holds, predicate value = .ok holds) :
    ∃ kept, frame.filterRows index predicate = .ok kept ∧
      frame.Keeps (frame.rows.filter fun row => holdsFor predicate (row[index]?.getD .null)) kept := by
  have answered := answered_check () total
  have ran := runOn_filterAsking_of_answered counted here answered
  rw [runOn_filterAsking_eq_filterRows] at ran
  have keeps := keeps_keeping counted
    (answered.length.trans (length_values_of_counted counted here))
  refine ⟨_, congrArg Prod.fst ran, ?_⟩
  rw [values_eq_rows counted here, List.map_map, whereTrue_map] at keeps
  rw [values_eq_rows counted here, List.map_map]
  exact keeps

/-- A field of what is kept has no values but those it had. -/
theorem Keeps.exists_field {rows : List (List Value)} (counted : frame.rowCount = .ok count)
    (keeps : frame.Keeps rows kept) (fewer : ∀ row ∈ rows, row ∈ frame.rows)
    (here : frame.fields[index]? = some source) :
    ∃ field, kept.fields[index]? = some field ∧
      ∀ value ∈ field.column.values, value ∈ source.column.values := by
  have layout := congrArg (·[index]?) keeps.layout
  simp only [List.getElem?_map, here, Option.map_some] at layout
  obtain ⟨field, there, -⟩ := Option.map_eq_some_iff.1 layout
  refine ⟨field, there, fun value member => ?_⟩
  rw [values_eq_rows keeps.counted there, keeps.rows, List.mem_map] at member
  obtain ⟨row, inRows, rfl⟩ := member
  rw [values_eq_rows counted here]
  exact List.mem_map_of_mem (fewer row inRows)

/-- Filtering twice keeps the rows that both predicates hold for. -/
theorem exists_filterRows_twice {position : Nat} {also : Field} (counted : frame.rowCount = .ok count)
    (here : frame.fields[index]? = some source)
    (total : ∀ value ∈ source.column.values, ∃ holds, predicate value = .ok holds)
    (there : frame.fields[position]? = some also)
    (alsoTotal : ∀ value ∈ also.column.values, ∃ holds, other value = .ok holds) :
    ∃ once twice, frame.filterRows index predicate = .ok once ∧
      once.filterRows position other = .ok twice ∧
      frame.Keeps (frame.rows.filter fun row => holdsFor predicate (row[index]?.getD .null)) once ∧
      frame.Keeps ((frame.rows.filter fun row => holdsFor predicate (row[index]?.getD .null)).filter
        fun row => holdsFor other (row[position]?.getD .null)) twice := by
  obtain ⟨once, filtered, keeps⟩ := exists_filterRows counted here total
  obtain ⟨field, found, fewer⟩ := keeps.exists_field counted
    (fun row member => (List.mem_filter.1 member).1) there
  obtain ⟨twice, again, next⟩ := exists_filterRows keeps.counted found
    fun value member => alsoTotal value (fewer value member)
  refine ⟨once, twice, filtered, again, keeps, ?_⟩
  rw [keeps.rows] at next
  exact keeps.trans next

/-- Two predicates may filter in either order. -/
theorem exists_filterRows_exchanged {position : Nat} {also : Field}
    (counted : frame.rowCount = .ok count) (here : frame.fields[index]? = some source)
    (total : ∀ value ∈ source.column.values, ∃ holds, predicate value = .ok holds)
    (there : frame.fields[position]? = some also)
    (alsoTotal : ∀ value ∈ also.column.values, ∃ holds, other value = .ok holds) :
    ∃ first second both, frame.filterRows index predicate = .ok first ∧
      first.filterRows position other = .ok both ∧
      frame.filterRows position other = .ok second ∧
      second.filterRows index predicate = .ok both := by
  obtain ⟨first, both, one, next, -, keeps⟩ :=
    exists_filterRows_twice counted here total there alsoTotal
  obtain ⟨second, again, alone, exchanged, -, alsoKeeps⟩ :=
    exists_filterRows_twice counted there alsoTotal here total
  rw [List.filter_comm] at alsoKeeps
  exact ⟨first, second, both, one, next, alone, (keeps.unique alsoKeeps) ▸ exchanged⟩

/-- A predicate that has filtered once keeps everything. -/
theorem exists_filterRows_repeated (counted : frame.rowCount = .ok count)
    (here : frame.fields[index]? = some source)
    (total : ∀ value ∈ source.column.values, ∃ holds, predicate value = .ok holds) :
    ∃ once, frame.filterRows index predicate = .ok once ∧
      once.filterRows index predicate = .ok once := by
  obtain ⟨once, twice, filtered, again, keeps, alsoKeeps⟩ :=
    exists_filterRows_twice counted here total here total
  simp only [List.filter_filter, Bool.and_self] at alsoKeeps
  exact ⟨once, filtered, (alsoKeeps.unique keeps) ▸ again⟩

end Predicates

/-- Filtering a frame of one length asks about the cells of the field in their order. When all are
answered it keeps the rows whose answer holds, in their order, with the names, labels and types of all
fields; it is refused as the first cell is refused that is, and asks about none behind that. Of
predicates that depend on nothing but the value, which filter a frame as `filterRows` does, two can be
exchanged, and one that is repeated changes nothing more. -/
theorem filterAsking_keeps (counted : frame.rowCount = .ok count) :
    (∀ {σ : Type} (ask : Value → InPlace σ Bool) (now after : σ) (index : Nat) (source : Field),
      frame.fields[index]? = some source →
        (∀ kept, (frame.filterAsking index ask).runOn now = (.ok kept, after) ↔
          ∃ answers, Answered ask now source.column.values answers after ∧
            frame.Keeps (whereTrue frame.rows answers) kept) ∧
        ∀ error, (frame.filterAsking index ask).runOn now = (.error error, after) ↔
          Refuses ask now source.column.values error after) ∧
    (∀ {σ : Type} (predicate : Value → Except Error Bool) (now : σ) (index : Nat),
      (frame.filterAsking index fun value => check (predicate value)).runOn now =
        (frame.filterRows index predicate, now)) ∧
    ∀ (predicate other : Value → Except Error Bool) (index position : Nat) (source also : Field),
      frame.fields[index]? = some source → frame.fields[position]? = some also →
      (∀ value ∈ source.column.values, ∃ holds, predicate value = .ok holds) →
      (∀ value ∈ also.column.values, ∃ holds, other value = .ok holds) →
        (∃ first second both, frame.filterRows index predicate = .ok first ∧
          first.filterRows position other = .ok both ∧
          frame.filterRows position other = .ok second ∧
          second.filterRows index predicate = .ok both) ∧
        ∃ once, frame.filterRows index predicate = .ok once ∧
          once.filterRows index predicate = .ok once := by
  refine ⟨fun ask now after index source here => ⟨?_, ?_⟩,
    fun predicate now index => runOn_filterAsking_eq_filterRows .., ?_⟩
  · exact fun kept => runOn_filterAsking_eq_ok_iff counted here
  · exact fun error => runOn_filterAsking_eq_error_iff counted here
  · intro predicate other index position source also here there total alsoTotal
    exact ⟨exists_filterRows_exchanged counted here total there alsoTotal,
      exists_filterRows_repeated counted here total⟩

/-- Levels by station, one of them missing. -/
def levelLog : Frame where
  name := "levels"
  fields :=
    [⟨"level", Labels.empty, none,
        ⟨⟨.int8, true⟩, ⟨[Cell.of (3 : Int8), Cell.empty rfl, Cell.of (5 : Int8)]⟩⟩⟩,
      ⟨"station", Labels.empty, none,
        ⟨⟨.string, false⟩, ⟨[Cell.of "quay", Cell.of "lock", Cell.of "lock"]⟩⟩⟩]

/-- Any level will do, but there must be one; the questions are counted. -/
def askForLevel (value : Value) : InPlace Nat Bool := do
  modify (· + 1)
  check (if value.isNull then .error (.nullNotAllowed none ⟨.int8, true⟩) else .ok true)

theorem filterAsking_levelLog : levelLog.rowCount = .ok 3 ∧
    (levelLog.filterAsking 0 askForLevel).runOn 0 =
      (.error (.nullNotAllowed none ⟨.int8, true⟩), 2) ∧
    ∃ first second both,
      levelLog.filterRows 0 (fun value => .ok !value.isNull) = .ok first ∧
      first.filterRows 1 (fun value => .ok (value.text == "lock")) = .ok both ∧
      levelLog.filterRows 1 (fun value => .ok (value.text == "lock")) = .ok second ∧
      second.filterRows 0 (fun value => .ok !value.isNull) = .ok both := by
  have counted : levelLog.rowCount = .ok 3 := rfl
  have refuses : Refuses askForLevel 0 levelLog.fields[0].column.values
      (.nullNotAllowed none ⟨.int8, true⟩) 2 := .later rfl (.here rfl)
  obtain ⟨asking, -, values⟩ := filterAsking_keeps counted
  refine ⟨counted, ((asking askForLevel 0 2 0 _ rfl).2 _).2 refuses, ?_⟩
  exact (values (fun value => .ok !value.isNull) (fun value => .ok (value.text == "lock")) 0 1
    levelLog.fields[0] levelLog.fields[1] rfl rfl (fun _ _ => ⟨_, rfl⟩) fun _ _ => ⟨_, rfl⟩).1

end Frame

end Columnar
