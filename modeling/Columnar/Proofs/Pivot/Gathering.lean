import Columnar.Proofs.Columns
import Columnar.Proofs.Pivot.Numbered

/-! Appending row by row makes the long frame of a wide one. Every row is visited once for each label
set, in the order of time; after some visits each column holds one value, one time or one text for each
of them, and no value is ever refused, because the types were decided from all fields. -/
namespace Columnar

/-- A row with its time, and the label set it is appended for. -/
structure Visit where
  time : Instant
  row : Nat
  set : Nat
  labels : Labels

namespace Column

variable {column : Column}

/-- A column holds what its type takes. -/
theorem takes_of_get? {row : Nat} {value : Value} (here : column.get? row = some value) :
    column.type.Takes value := by
  obtain ⟨cell, -, rfl⟩ := Option.map_eq_some_iff.1 here
  exact cell.takes_value

theorem ofValues_values (column : Column) : ofValues column.type column.values = .ok column := by
  have cells : (column.values.mapM (Cell.ofValue column.type)) = .ok column.cells.toList := by
    rw [values, Cells.values, List.mapM_map, mapM_eq_ok_iff, List.forall₂_same]
    intro cell _
    exact Cell.ofValue_value cell
  rw [ofValues, cells]
  rfl

end Column

namespace NumberedSeries

/-- The value that a visit adds to the column of a name. -/
def valueAt (series : NumberedSeries) (name : Nat) (visit : Visit) : Value :=
  ((series.field? visit.set name).bind (·.column.get? visit.row)).getD .null

/-- The visits of rows, each row once for every label set. -/
def visits (series : NumberedSeries) (order : List (Instant × Nat)) : List Visit :=
  order.flatMap fun timed =>
    series.labelSets.zipIdx.map fun labelled => ⟨timed.1, timed.2, labelled.2, labelled.1⟩

/-- A visit can be made: its fields have the row, and its values fit into the columns. -/
structure Fits (series : NumberedSeries) (types : List FieldType) (visit : Visit) : Prop where
  inside : ∀ name field, series.field? visit.set name = some field → visit.row < field.column.size
  takes : ∀ (name : Nat) (type : FieldType), types[name]? = some type →
    type.Takes (series.valueAt name visit)

/-- A column holds the values of visits under the name of a number. -/
structure HoldsValues (series : NumberedSeries) (visits : List Visit) (typed : FieldType × Nat)
    (column : Column) : Prop where
  type : column.type = typed.1
  values : column.values = visits.map (series.valueAt typed.2)

end NumberedSeries

namespace LongRows

open NumberedSeries

variable {series : NumberedSeries} {types : List FieldType} {visits : List Visit} {rows : LongRows}

/-- What has been appended are the times, the values and the texts of visits. -/
structure Holds (series : NumberedSeries) (types : List FieldType) (visits : List Visit)
    (rows : LongRows) : Prop where
  times : rows.times = visits.map Visit.time
  values : List.Forall₂ (series.HoldsValues visits) types.zipIdx rows.values
  texts : rows.texts = series.keys.keys.map fun key =>
    visits.map fun visit => (visit.labels.get? key).getD ""

theorem holds_none (series : NumberedSeries) (types : List FieldType) :
    Holds series types []
      { times := []
        values := types.map fun type => ⟨type, Cells.empty⟩
        texts := series.keys.keys.map fun _ => [] } := by
  refine ⟨rfl, ?_, rfl⟩
  have columns : (types.map fun type => (⟨type, Cells.empty⟩ : Column)) =
      types.zipIdx.map fun typed => ⟨typed.1, Cells.empty⟩ := by
    conv_lhs => rw [← List.zipIdx_map_fst 0 types, List.map_map]
    rfl
  rw [columns, List.forall₂_map_right_iff, List.forall₂_same]
  exact fun typed _ => ⟨rfl, rfl⟩

theorem read_eq_valueAt {visit : Visit} {name : Nat}
    (inside : ∀ field, series.field? visit.set name = some field → visit.row < field.column.size) :
    series.read visit.set visit.row name = .ok (series.valueAt name visit) := by
  rw [NumberedSeries.read, valueAt]
  cases found : series.field? visit.set name with
  | none => rfl
  | some field =>
    have bound : visit.row < field.column.values.length := by
      rw [Column.length_values]
      exact inside field found
    simp [Column.get, Column.get?_eq_values, List.getElem?_eq_getElem bound]

/-- A visit adds one value to each column. -/
theorem appendValues_spec {visit : Visit} {start : Nat} {columns : List Column}
    (inside : ∀ name field, series.field? visit.set name = some field → visit.row < field.column.size)
    (takes : ∀ (index : Nat) (type : FieldType), types[index]? = some type →
      type.Takes (series.valueAt (start + index) visit))
    (before : List.Forall₂ (series.HoldsValues visits) (types.zipIdx start) columns) :
    ∃ after, appendValues series visit.set visit.row start columns = .ok after ∧
      List.Forall₂ (series.HoldsValues (visits ++ [visit])) (types.zipIdx start) after := by
  induction types generalizing start columns with
  | nil =>
    cases before
    exact ⟨[], rfl, .nil⟩
  | cons type rest ih =>
    obtain ⟨column, others, holds, later, rfl⟩ := List.forall₂_cons_left_iff.1 before
    have fits : column.type.Takes (series.valueAt start visit) := by
      rw [holds.type]
      exact takes 0 type rfl
    obtain ⟨longer, pushed, typed, values⟩ := column.push_stores _ fits
    obtain ⟨after, ran, all⟩ := ih (fun index other there => by
      rw [Nat.add_assoc, Nat.add_comm 1]
      exact takes (index + 1) other there) later
    refine ⟨longer :: after, ?_, .cons ⟨typed.trans holds.type, ?_⟩ all⟩
    · rw [appendValues, read_eq_valueAt (inside start)]
      simp only [bind, Except.bind, pushed, ran]
      rfl
    · rw [values, holds.values, List.map_append]
      rfl

/-- A row is appended for one label set after the other. -/
theorem appendSets_spec {time : Instant} {row start : Nat} {sets : List Labels}
    (fits : ∀ labelled ∈ sets.zipIdx start,
      series.Fits types ⟨time, row, labelled.2, labelled.1⟩)
    (before : rows.Holds series types visits) :
    ∃ after, appendSets series time row start sets rows = .ok after ∧
      after.Holds series types
        (visits ++ (sets.zipIdx start).map fun labelled => ⟨time, row, labelled.2, labelled.1⟩) := by
  induction sets generalizing start rows visits with
  | nil => exact ⟨rows, rfl, by simpa using before⟩
  | cons labels rest ih =>
    have here := fits (labels, start) (by simp)
    obtain ⟨values, ran, holds⟩ := appendValues_spec here.inside
      (fun index type there => by
        rw [Nat.zero_add]
        exact here.takes index type there) before.values
    have step : Holds series types (visits ++ [⟨time, row, start, labels⟩])
        { times := rows.times ++ [time]
          values
          texts := List.zipWith (fun key texts => texts ++ [(labels.get? key).getD ""])
            series.keys.keys rows.texts } := by
      refine ⟨by simp [before.times], holds, ?_⟩
      simp only [before.texts]
      rw [List.zipWith_map_right, List.zipWith_self]
      simp
    obtain ⟨after, later, all⟩ := ih
      (fun labelled member => fits labelled (List.mem_cons_of_mem _ member)) step
    refine ⟨after, ?_, by simpa using all⟩
    rw [appendSets, ran]
    exact later

/-- Rows are appended one after the other. -/
theorem appendRows_spec {order : List (Instant × Nat)}
    (fits : ∀ visit ∈ series.visits order, series.Fits types visit)
    (before : rows.Holds series types visits) :
    ∃ after, appendRows series order rows = .ok after ∧
      after.Holds series types (visits ++ series.visits order) := by
  induction order generalizing rows visits with
  | nil => exact ⟨rows, rfl, by simpa [NumberedSeries.visits] using before⟩
  | cons timed rest ih =>
    obtain ⟨time, row⟩ := timed
    have here : ∀ labelled ∈ series.labelSets.zipIdx 0,
        series.Fits types ⟨time, row, labelled.2, labelled.1⟩ := by
      intro labelled member
      exact fits _ (List.mem_flatMap.2 ⟨(time, row), by simp, List.mem_map_of_mem member⟩)
    obtain ⟨middle, ran, holds⟩ := appendSets_spec here before
    obtain ⟨after, later, all⟩ := ih (fun visit member => fits visit (by
      rw [NumberedSeries.visits, List.flatMap_cons]
      exact List.mem_append.2 (.inr member))) holds
    refine ⟨after, ?_, ?_⟩
    · rw [appendRows, ran]
      exact later
    · rw [List.append_assoc] at all
      exact all

end LongRows

namespace NumberedSeries

variable {series : NumberedSeries} {fields : List Field} {order : List (Instant × Nat)}

theorem mem_visits {visit : Visit} : visit ∈ series.visits order ↔
    (visit.time, visit.row) ∈ order ∧ series.labelSets[visit.set]? = some visit.labels := by
  rw [visits, List.mem_flatMap]
  constructor
  · rintro ⟨timed, inOrder, member⟩
    obtain ⟨labelled, inSets, rfl⟩ := List.mem_map.1 member
    exact ⟨inOrder, List.mem_zipIdx_iff_getElem?.1 inSets⟩
  · rintro ⟨inOrder, atSet⟩
    refine ⟨_, inOrder, List.mem_map.2 ⟨(visit.labels, visit.set), ?_, rfl⟩⟩
    exact List.mem_zipIdx_iff_getElem?.2 atSet

/-- What all visits add, when it depends on the label set only by its labels. -/
theorem map_visits {β : Type} {f : Visit → β} (g : Instant → Nat → Labels → β)
    (same : ∀ visit ∈ series.visits order, f visit = g visit.time visit.row visit.labels) :
    (series.visits order).map f =
      order.flatMap fun timed => series.labelSets.map fun labels => g timed.1 timed.2 labels := by
  have uniform : (series.visits order).map f =
      (series.visits order).map fun visit => g visit.time visit.row visit.labels :=
    List.map_congr_left same
  rw [uniform, visits, List.map_flatMap]
  apply List.flatMap_congr
  intro timed _
  rw [List.map_map]
  conv_rhs => rw [← List.zipIdx_map_fst 0 series.labelSets, List.map_map]
  rfl

/-- The values that all visits add to the column of a name. -/
theorem map_valueAt (numbers : series.Numbers fields) (distinct : (fields.map Field.place).Nodup)
    {position : Nat} {name : String} (atName : series.names[position]? = some name) :
    (series.visits order).map (series.valueAt position) =
      (SeriesGrid.ofFields fields).columnValues (order.map Prod.snd) name := by
  have sets : (SeriesGrid.ofFields fields).labelSets = series.labelSets := numbers.labelSets.symm
  have added : (series.visits order).map (series.valueAt position) = _ :=
    map_visits (fun _ row labels =>
      (((SeriesGrid.ofFields fields).field? name labels).bind (·.column.get? row)).getD .null)
    fun visit member => by
      rw [valueAt, field?_eq numbers distinct (mem_visits.1 member).2 atName]
  rw [added, SeriesGrid.columnValues, sets, List.flatMap_map]
  simp only [List.map_map, Function.comp_def, Option.bind_map]

end NumberedSeries

namespace LongRows.Holds

open NumberedSeries

variable {series : NumberedSeries} {fields : List Field} {order : List (Instant × Nat)}
variable {types : List FieldType} {rows : LongRows}
variable (holds : rows.Holds series types (series.visits order)) (numbers : series.Numbers fields)

include holds numbers

/-- The times of all visits are those of the rows, each once for every label set. -/
theorem timeCells : rows.times.map (fun t => (Cell.of t : Cell ⟨.time, false⟩)) =
    order.flatMap fun timed =>
      (SeriesGrid.ofFields fields).labelSets.map fun _ => Cell.of timed.1 := by
  have sets : (SeriesGrid.ofFields fields).labelSets = series.labelSets := numbers.labelSets.symm
  rw [holds.times, List.map_map, sets]
  exact map_visits (fun time _ _ => (Cell.of time : Cell ⟨.time, false⟩)) fun _ _ => rfl

/-- The texts of all visits are those of the label sets, over and over. -/
theorem texts_eq :
    rows.texts = series.keys.keys.map ((SeriesGrid.ofFields fields).labelTexts order.length) := by
  have sets : (SeriesGrid.ofFields fields).labelSets = series.labelSets := numbers.labelSets.symm
  rw [holds.texts]
  apply List.map_congr_left
  intro key _
  have added : (series.visits order).map (fun visit => (visit.labels.get? key).getD "") = _ :=
    map_visits (fun _ _ labels => (labels.get? key).getD "") fun _ _ => rfl
  rw [added, SeriesGrid.labelTexts, sets, List.flatMap_def, List.map_const']

omit holds numbers in
/-- The columns that hold what the visits add are those made of the values of their names. -/
theorem mapM_ofValues {visits : List Visit} {values : String → List Value} {names : List String}
    {types : List FieldType} {columns : List Column} {start : Nat}
    (length : names.length = types.length)
    (added : ∀ (index : Nat) (name : String), names[index]? = some name →
      visits.map (series.valueAt (start + index)) = values name)
    (holds : List.Forall₂ (series.HoldsValues visits) (types.zipIdx start) columns) :
    ((names.zip types).mapM fun (name, type) => do
        let column ← Column.ofValues type (values name)
        return { name, labels := Labels.empty, config := none, column : Field }) =
      (.ok (List.zipWith (fun name column => ⟨name, Labels.empty, none, column⟩) names columns) :
        Except Error (List Field)) := by
  induction names generalizing types columns start with
  | nil => rfl
  | cons name names ih =>
    obtain ⟨type, types, rfl⟩ := List.exists_cons_of_length_eq_add_one length.symm
    obtain ⟨column, others, here, later, rfl⟩ := List.forall₂_cons_left_iff.1 holds
    have same : Column.ofValues type (values name) = .ok column := by
      have made := column.ofValues_values
      have first := added 0 name rfl
      rw [Nat.add_zero] at first
      rw [here.type, here.values] at made
      dsimp only at made
      rwa [first] at made
    have rest := ih (Nat.succ.inj length) (fun index other there => by
      rw [Nat.add_assoc, Nat.add_comm 1]
      exact added (index + 1) other there) later
    rw [List.zip_cons_cons, List.mapM_cons, rest]
    simp only [same]
    rfl

/-- The values of all visits are those of the grid. -/
theorem valueColumns (distinct : (fields.map Field.place).Nodup)
    (decided : (SeriesGrid.ofFields fields).names.mapM (SeriesGrid.ofFields fields).columnType =
      .ok types) :
    (((SeriesGrid.ofFields fields).names.zip types).mapM fun (name, type) => do
        let column ← Column.ofValues type
          ((SeriesGrid.ofFields fields).columnValues (order.map Prod.snd) name)
        return { name, labels := Labels.empty, config := none, column : Field }) =
      (.ok (List.zipWith (fun name column => ⟨name, Labels.empty, none, column⟩)
        (SeriesGrid.ofFields fields).names rows.values) : Except Error (List Field)) := by
  have names : (SeriesGrid.ofFields fields).names = series.names := numbers.names.symm
  refine mapM_ofValues (mapM_eq_ok_iff.1 decided).length_eq (fun position name there => ?_)
    holds.values
  rw [names] at there
  rw [Nat.zero_add]
  exact map_valueAt numbers distinct there

end LongRows.Holds

namespace Frame

open NumberedSeries

/-- The long frame that is made of what has been appended. -/
def withAppended (wide : Frame) (time : Field) (series : NumberedSeries) (rows : LongRows) :
    Frame where
  name := wide.name
  refId := wide.refId
  fields := time.withColumn ⟨⟨.time, false⟩, ⟨rows.times.map Cell.of⟩⟩ ::
    (List.zipWith (fun name column => ⟨name, Labels.empty, none, column⟩) series.names rows.values ++
      List.zipWith (fun key texts => ⟨key, Labels.empty, none, ⟨⟨.string, false⟩, ⟨texts.map Cell.of⟩⟩⟩)
        series.keys.keys rows.texts)
  info := some (wide.infoWithShape .timeSeriesLong)

/-- The steps that are left when the layout is wide. -/
theorem gather_of_layout {wide : Frame} {time : Field} (layout : wide.seriesRoles.kind = .wide)
    (isSeries : wide.IsSeries time) :
    wide.gather = wide.rowCount.bind fun _ => time.times.bind fun times =>
      (wide.valueFields.foldlM NumberedSeries.add {}).bind fun series =>
        (series.decideTypes 0 series.names).bind fun types =>
          (LongRows.appendRows series (rowsByTime times)
            { times := []
              values := types.map fun type => ⟨type, Cells.empty⟩
              texts := series.keys.keys.map fun _ => [] }).bind fun rows =>
            .ok (wide.withAppended time series rows) := by
  obtain ⟨-, timeField, -, values⟩ := seriesRead_of_isSeries isSeries
  unfold gather
  dsimp only
  rw [if_neg (not_not.2 layout), timeField, values]
  rfl

section Gathered

variable {wide : Frame} {time : Field} {rows : Nat} {times : List Instant}
variable {series : NumberedSeries} {types : List FieldType}
variable (parts : wide.Unpivots time rows times) (numbers : series.Numbers wide.valueFields)
variable (decided : (SeriesGrid.ofFields wide.valueFields).names.mapM
  (SeriesGrid.ofFields wide.valueFields).columnType = .ok types)

include parts

/-- The fields of one length have a cell in every row that is visited. -/
theorem exists_cell_of_visit {visit : Visit}
    (member : visit ∈ series.visits (rowsByTime times)) {source : Field}
    (inFields : source ∈ wide.fields) : ∃ value, source.column.get? visit.row = some value := by
  have atRow := mem_rowsByTime.1 (NumberedSeries.mem_visits.1 member).1
  have inside := (List.getElem?_eq_some_iff.1 atRow).1
  rw [length_times parts.counted parts.isSeries parts.read,
    ← (rowCount_eq_ok_iff.1 parts.counted).2 source inFields, ← Column.length_values] at inside
  exact ⟨_, by rw [Column.get?_eq_values, List.getElem?_eq_getElem inside]⟩

include numbers decided

/-- No visit is refused: the types were decided from all fields. -/
theorem fits_of_mem_visits {visit : Visit} (member : visit ∈ series.visits (rowsByTime times)) :
    series.Fits types visit := by
  have atSet := (mem_visits.1 member).2
  have cell : ∀ name field, series.field? visit.set name = some field →
      ∃ value, field.column.get? visit.row = some value := by
    intro name field found
    have isValue := ((numbers.field? _ _ field).1 found).1
    exact exists_cell_of_visit parts member (List.mem_filter.1 isValue).1
  refine ⟨fun name field found => ?_, fun position type atType => ?_⟩
  · obtain ⟨value, here⟩ := cell name field found
    rw [Column.get?_eq_values] at here
    rw [← Column.length_values]
    exact (List.getElem?_eq_some_iff.1 here).1
  · obtain ⟨name, atName, typeOf⟩ :=
      getElem?_of_forall₂ (mapM_eq_ok_iff.1 decided).flip atType
    have typed := SeriesGrid.typedAs_of_columnType typeOf
    have there : series.names[position]? = some name := by
      rw [numbers.names]
      exact atName
    have inSets : visit.labels ∈ (SeriesGrid.ofFields wide.valueFields).labelSets := by
      have listed := List.mem_of_getElem? atSet
      rw [numbers.labelSets] at listed
      exact listed
    have same := field?_eq numbers parts.distinct atSet there
    rw [valueAt]
    cases found : series.field? visit.set position with
    | none =>
      rw [found] at same
      refine typed.nullable.2 ⟨visit.labels, inSets, fun field here => ?_⟩
      rw [← same] at here
      cases here
    | some field =>
      rw [found] at same
      obtain ⟨value, here⟩ := cell position field found
      rw [Option.bind_some, here, Option.getD_some]
      refine (Column.takes_of_get? here).mono (typed.kind visit.labels inSets field same.symm) ?_
      refine fun allowed => typed.nullable.2 ⟨visit.labels, inSets, fun other also => ?_⟩
      rw [← same] at also
      cases also
      exact allowed

/-- All rows are appended. -/
theorem exists_appended : ∃ appended,
    LongRows.appendRows series (rowsByTime times)
        { times := []
          values := types.map fun type => ⟨type, Cells.empty⟩
          texts := series.keys.keys.map fun _ => [] } = .ok appended ∧
      appended.Holds series types (series.visits (rowsByTime times)) := by
  have ran := LongRows.appendRows_spec (fun visit member => fits_of_mem_visits parts numbers decided
    member) (LongRows.holds_none series types)
  rwa [List.nil_append] at ran

/-- The frame is made long. -/
theorem exists_gather (ran : wide.valueFields.foldlM NumberedSeries.add {} = .ok series) :
    ∃ appended, appended.Holds series types (series.visits (rowsByTime times)) ∧
      wide.gather = .ok (wide.withAppended time series appended) := by
  have layout := parts.isSeries.kind_eq_wide_iff.2 parts.noFactors
  obtain ⟨appended, done, holds⟩ := exists_appended parts numbers decided
  refine ⟨appended, holds, ?_⟩
  rw [gather_of_layout layout parts.isSeries, parts.counted, parts.read, ran]
  simp only [Except.bind, decideTypes_eq numbers parts.distinct, decided, done]

end Gathered

/-- A frame is made long row by row as it is made long column by column. -/
theorem gather_eq_wideToLong (frame : Frame) : frame.gather = frame.wideToLong := by
  by_cases layout : frame.seriesRoles.kind = .wide
  · obtain ⟨time, isSeries⟩ := isSeries_of_kind (by rw [layout]; nofun)
    obtain ⟨-, timeField, -, values⟩ := seriesRead_of_isSeries isSeries
    rw [gather_of_layout layout isSeries, wideToLong]
    dsimp only
    rw [if_neg (not_not.2 layout), timeField, values]
    simp only [bind, Except.bind]
    cases counted : frame.rowCount with
    | error error => rfl
    | ok rows =>
      cases read : time.times with
      | error error => rfl
      | ok times =>
        have numbered := foldlM_add numbers_none (fun _ => Iff.rfl) frame.valueFields
        dsimp only
        cases repeated : Field.firstRepeated? [] frame.valueFields with
        | some field =>
          rw [repeated] at numbered
          rw [numbered]
        | none =>
          rw [repeated] at numbered
          obtain ⟨series, ran, numbers⟩ := numbered
          have distinct := (Field.places_of_firstRepeated? repeated).1
          rw [List.nil_append] at numbers
          simp only [ran, decideTypes_eq numbers distinct]
          cases decided : (SeriesGrid.ofFields frame.valueFields).names.mapM
              (SeriesGrid.ofFields frame.valueFields).columnType with
          | error error => rfl
          | ok types =>
            have parts : frame.Unpivots time rows times :=
              ⟨isSeries, isSeries.kind_eq_wide_iff.1 layout, counted, read, distinct⟩
            obtain ⟨appended, done, holds⟩ := exists_appended parts numbers decided
            have names : (SeriesGrid.ofFields frame.valueFields).names = series.names :=
              numbers.names.symm
            have keys : (SeriesGrid.ofFields frame.valueFields).keys = series.keys.keys :=
              congrArg Labels.keys numbers.keys.symm
            have texts := holds.texts_eq numbers
            have made := holds.valueColumns numbers distinct decided
            rw [parts.length_rowsByTime] at texts
            simp only [bind, Except.bind] at made
            simp only [done, made, withAppended, holds.timeCells numbers]
            rw [names, keys, texts, List.zipWith_map_right, List.zipWith_self]
            rfl
  · unfold gather wideToLong
    dsimp only
    rw [if_pos layout, if_pos layout]

end Frame

end Columnar
