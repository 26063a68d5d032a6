import Columnar.Pivot.Long
import Columnar.Proofs.Cells
import Columnar.Proofs.Labels
import Columnar.Proofs.Pivot.Rows
import Columnar.Proofs.Time.Order
import Mathlib.Data.List.ProdSigma

/-! Wide frames that are whole grids. When every label set has a field of every name, and the fields
of one name are of one type, nothing stops the frame from being made long, and each cell of the
result is the cell of one field of the grid. -/
namespace Columnar

/-- What places a field in a grid. -/
def Field.place (field : Field) : Labels × String := (field.labels, field.name)

/-- The value fields of a frame as a grid: one field for every label set and name. -/
structure SeriesGrid.Whole (series : List Field) (labelSets : List Labels) (names : List String)
    (type : String → FieldType) : Prop where
  places : series.map Field.place = labelSets ×ˢ names
  labelSetsOnce : labelSets.Nodup
  namesOnce : names.Nodup
  someLabels : labelSets ≠ []
  someName : names ≠ []
  types : ∀ field ∈ series, field.type = type field.name

namespace Field

theorem sameSeries_iff (a b : Field) : a.sameSeries b = true ↔ a.place = b.place := by
  simp [sameSeries, place, and_comm]

/-- No field comes twice when all of them have places of their own. -/
theorem firstRepeated?_eq_none {seen fields : List Field} (distinct : (fields.map place).Nodup)
    (unseen : ∀ field ∈ fields, ∀ other ∈ seen, other.place ≠ field.place) :
    firstRepeated? seen fields = none := by
  induction fields generalizing seen with
  | nil => rfl
  | cons field rest ih =>
    rw [List.map_cons, List.nodup_cons] at distinct
    obtain ⟨once, distinct⟩ := distinct
    have new : seen.any (·.sameSeries field) = false := by
      rw [List.any_eq_false]
      intro other member
      rw [sameSeries_iff]
      exact unseen field (by simp) other member
    rw [firstRepeated?, new]
    apply ih distinct
    intro later member other inSeen
    rcases List.mem_cons.1 inSeen with rfl | inSeen
    · intro same
      exact once (same ▸ List.mem_map_of_mem member)
    · exact unseen later (by simp [member]) other inSeen

end Field

namespace SeriesGrid

private theorem agreeOnKind_eq (name : String) (kind : Kind) (fields : List Field)
    (same : ∀ field ∈ fields, field.type.kind = kind) : agreeOnKind name kind fields = .ok () := by
  induction fields with
  | nil => rfl
  | cons field rest ih =>
    rw [agreeOnKind, if_pos (same field (by simp))]
    exact ih fun later member => same later (by simp [member])

/-- Fields of one type make a column of that type. -/
theorem columnType_of_fields {grid : SeriesGrid} {name : String} {found : List Field}
    {type : FieldType} (fields : grid.labelSets.map (grid.field? name) = found.map some)
    (some_ : found ≠ []) (same : ∀ field ∈ found, field.type = type) :
    grid.columnType name = .ok type := by
  obtain ⟨first, rest, rfl⟩ := List.exists_cons_of_ne_nil some_
  have kinds : ∀ field ∈ rest, field.type.kind = first.type.kind := by
    intro field member
    rw [same field (by simp [member]), same first (by simp)]
  have nullable : ((first :: rest).map some).any
      (fun field => (field.map (·.type.nullable)).getD true) = type.nullable := by
    rw [Bool.eq_iff_iff, List.any_eq_true]
    constructor
    · rintro ⟨field, member, allows⟩
      obtain ⟨inner, inFound, rfl⟩ := List.mem_map.1 member
      simpa [same inner inFound] using allows
    · intro allows
      exact ⟨some first, by simp, by simpa [same first (by simp)] using allows⟩
  have present : ((first :: rest).map some).filterMap id = first :: rest := by simp
  unfold columnType
  simp only [fields, present, agreeOnKind_eq name _ rest kinds, nullable]
  rw [same first (by simp)]
  rfl

end SeriesGrid

namespace SeriesGrid.Whole

variable {series : List Field} {labelSets : List Labels} {names : List String}
variable {type : String → FieldType} (whole : Whole series labelSets names type)

include whole

theorem firstRepeated? : Field.firstRepeated? [] series = none := by
  refine Field.firstRepeated?_eq_none ?_ fun _ _ => List.forall_mem_nil _
  rw [whole.places]
  exact whole.labelSetsOnce.product whole.namesOnce

theorem labelSets_eq : (ofFields series).labelSets = labelSets := by
  have places : series.map Field.labels = (series.map Field.place).map Prod.fst := by
    rw [List.map_map]
    rfl
  rw [ofFields, places, whole.places]
  exact eraseDups_product_fst whole.labelSetsOnce whole.someName

theorem names_eq : (ofFields series).names = names := by
  have places : series.map Field.name = (series.map Field.place).map Prod.snd := by
    rw [List.map_map]
    rfl
  rw [ofFields, places, whole.places]
  exact eraseDups_product_snd whole.namesOnce whole.someLabels

/-- Every place of the grid has its field. -/
theorem field?_eq_some {labels : Labels} {name : String} (inSets : labels ∈ labelSets)
    (inNames : name ∈ names) :
    ∃ field ∈ series, (ofFields series).field? name labels = some field ∧
      field.labels = labels ∧ field.name = name := by
  have placed : (labels, name) ∈ series.map Field.place := by
    rw [whole.places]
    exact List.mem_product.2 ⟨inSets, inNames⟩
  obtain ⟨field, member, here⟩ := List.mem_map.1 placed
  have isThere : ((ofFields series).field? name labels).isSome := by
    rw [field?, List.find?_isSome]
    cases here
    exact ⟨field, member, by simp⟩
  obtain ⟨found, isFound⟩ := Option.isSome_iff_exists.1 isThere
  have isPlace := List.find?_some isFound
  simp only [Bool.and_eq_true, beq_iff_eq] at isPlace
  exact ⟨found, List.mem_of_find?_eq_some isFound, isFound, isPlace.2, isPlace.1⟩

/-- A field of the grid is the one that is found under its name and labels. -/
theorem field?_of_mem {field : Field} (member : field ∈ series) :
    (ofFields series).field? field.name field.labels = some field := by
  have distinct : (series.map Field.place).Nodup := by
    rw [whole.places]
    exact whole.labelSetsOnce.product whole.namesOnce
  have placed : field.place ∈ labelSets ×ˢ names := by
    rw [← whole.places]
    exact List.mem_map_of_mem member
  obtain ⟨inSets, inNames⟩ := List.mem_product.1 placed
  obtain ⟨found, inSeries, isFound, labels, named⟩ := whole.field?_eq_some inSets inNames
  have same : found.place = field.place := by rw [Field.place, labels, named]; rfl
  rw [isFound, List.inj_on_of_nodup_map distinct inSeries member same]

/-- The fields of one name agree on the type of their column. -/
theorem columnType_eq {name : String} (inNames : name ∈ names) :
    (ofFields series).columnType name = .ok (type name) := by
  have found : ∃ fields : List Field,
      labelSets.map ((ofFields series).field? name) = fields.map some ∧
        ∀ field ∈ fields, field.type = type name :=
    exists_map_some fun labels inSets => by
      obtain ⟨field, member, here, -, named⟩ := whole.field?_eq_some inSets inNames
      exact ⟨field, here, by rw [whole.types field member, named]⟩
  obtain ⟨fields, here, same⟩ := found
  refine columnType_of_fields (by rw [whole.labelSets_eq, here]) (fun none => ?_) same
  rw [none, List.map_nil, List.map_eq_nil_iff] at here
  exact whole.someLabels here

end SeriesGrid.Whole

/-- A wide frame that is a whole grid: a field of ascending instants, and fields that are observed
at each of them. -/
structure Frame.WideGrid (wide : Frame) (time : Field) (slots : List Instant) (series : List Field)
    (labelSets : List Labels) (names : List String) (type : String → FieldType) : Prop where
  fields : wide.fields = time :: series
  timeType : time.type = ⟨.time, false⟩
  times : time.column.values = slots.map (Value.of .time)
  ascending : slots.Pairwise fun a b => a.before b = true
  whole : SeriesGrid.Whole series labelSets names type
  observed : ∀ field ∈ series, field.type.kind.isObserved = true
  sizes : ∀ field ∈ series, field.column.size = slots.length

/-- Rows that are in order already stay as they are. -/
theorem rowsByTime_eq {slots : List Instant}
    (ascending : slots.Pairwise fun a b => a.before b = true) :
    rowsByTime slots = slots.zipIdx := by
  apply List.mergeSort_of_pairwise
  have ordered : (slots.zipIdx.map Prod.fst).Pairwise fun a b => a.atMost b = true := by
    rw [List.zipIdx_map_fst]
    exact ascending.imp Instant.atMost_of_before
  exact List.pairwise_map.1 ordered

namespace Frame.WideGrid

variable {wide : Frame} {time : Field} {slots : List Instant} {series : List Field}
variable {labelSets : List Labels} {names : List String} {type : String → FieldType}
variable (grid : wide.WideGrid time slots series labelSets names type)

include grid

theorem series_ne_nil : series ≠ [] := by
  intro none
  have places := grid.whole.places
  rw [none, List.map_nil] at places
  have counted := congrArg List.length places
  rw [List.length_product, List.length_nil] at counted
  have some := List.length_pos_iff.2 grid.whole.someLabels
  have named := List.length_pos_iff.2 grid.whole.someName
  exact absurd counted (Nat.ne_of_lt (Nat.mul_pos some named))

theorem inRoles : wide.InRoles time series [] :=
  ⟨by rw [grid.fields, List.append_nil], by rw [grid.timeType], grid.observed, List.forall_mem_nil _⟩

theorem rowCount_eq : wide.rowCount = .ok slots.length := by
  refine rowCount_eq_ok_iff.2 ⟨by simp [grid.fields], fun field member => ?_⟩
  rw [grid.fields] at member
  rcases List.mem_cons.1 member with rfl | member
  · rw [← Column.length_values, grid.times, List.length_map]
  · exact grid.sizes field member

theorem columnValues_eq (name : String) :
    (SeriesGrid.ofFields series).columnValues (List.range slots.length) name =
      (List.range slots.length).flatMap fun slot => labelSets.map fun labels =>
        (((SeriesGrid.ofFields series).field? name labels).bind (·.column.get? slot)).getD .null := by
  rw [SeriesGrid.columnValues, grid.whole.labelSets_eq]
  simp [Function.comp_def, Option.bind_map]

/-- Every cell of the grid has its value. -/
theorem cell_eq {name : String} {labels : Labels} {slot : Nat} (inNames : name ∈ names)
    (inSets : labels ∈ labelSets) (inside : slot < slots.length) :
    ∃ field, (SeriesGrid.ofFields series).field? name labels = some field ∧
      ∃ cell : Cell (type name), field.column.get? slot = some cell.value := by
  obtain ⟨field, member, here, -, named⟩ := grid.whole.field?_eq_some inSets inNames
  have typed : field.column.type = type name := by
    rw [← named]
    exact grid.whole.types field member
  have bound : slot < field.column.cells.toList.length := by
    have size : field.column.cells.toList.length = slots.length := grid.sizes field member
    omega
  have found : field.column.get? slot = some field.column.cells.toList[slot].value := by
    simp [Column.get?, Cells.get?, bound]
  refine ⟨field, here, ?_⟩
  rw [found]
  rw [← typed]
  exact ⟨_, rfl⟩

/-- The column of a name holds the cells of its fields. -/
theorem column_eq {name : String} (inNames : name ∈ names) :
    ∃ cells : Cells (type name),
      Column.ofValues (type name)
        ((SeriesGrid.ofFields series).columnValues (List.range slots.length) name) =
          .ok ⟨type name, cells⟩ ∧
      cells.values =
        (SeriesGrid.ofFields series).columnValues (List.range slots.length) name := by
  apply Column.ofValues_eq_ok
  intro value member
  rw [grid.columnValues_eq] at member
  obtain ⟨slot, inRange, inRow⟩ := List.mem_flatMap.1 member
  obtain ⟨labels, inSets, rfl⟩ := List.mem_map.1 inRow
  obtain ⟨field, here, cell, found⟩ := grid.cell_eq inNames inSets (List.mem_range.1 inRange)
  exact ⟨cell, by simp [here, found]⟩

/-- The value field of a name in the long frame that a grid gives. -/
structure LongColumn (series : List Field) (slots : List Instant) (type : String → FieldType)
    (name : String) (field : Field) : Prop where
  named : field.name = name
  unlabelled : field.labels = Labels.empty
  typed : field.type = type name
  values : field.column.values =
    (SeriesGrid.ofFields series).columnValues (List.range slots.length) name

/-- Every name of the grid gets its column. -/
theorem columns_eq : ∃ columns,
    ((names.zip (names.map type)).mapM fun (name, type) => do
      let column ← Column.ofValues type
        ((SeriesGrid.ofFields series).columnValues (List.range slots.length) name)
      return { name, labels := Labels.empty, config := none, column : Field }) =
        (.ok columns : Except Error (List Field)) ∧
      List.Forall₂ (LongColumn series slots type) names columns := by
  have zipped : names.zip (names.map type) = names.map fun name => (name, type name) := by
    simpa using List.zip_map' (f := id) (g := type) (l := names)
  rw [zipped, List.mapM_map]
  apply exists_mapM_ok
  intro name inNames
  obtain ⟨cells, made, same⟩ := grid.column_eq inNames
  refine ⟨⟨name, Labels.empty, none, ⟨type name, cells⟩⟩, ?_, rfl, rfl, rfl, same⟩
  simp only [Function.comp_apply, made]
  rfl

/-- The time field of the long frame: every slot once for each label set. -/
def longTime (time : Field) (slots : List Instant) (labelSets : List Labels) : Field :=
  time.withColumn
    ⟨⟨.time, false⟩, ⟨slots.flatMap fun slot => labelSets.map fun _ => Cell.of slot⟩⟩

/-- The text field of a label key in the long frame. -/
def textColumn (series : List Field) (rows : Nat) (key : String) : Field where
  name := key
  labels := Labels.empty
  config := none
  column := ⟨⟨.string, false⟩, ⟨((SeriesGrid.ofFields series).labelTexts rows key).map Cell.of⟩⟩

/-- The long frame of a grid: times, a value field for every name, and a text for every key. -/
def longFrame (wide : Frame) (time : Field) (slots : List Instant) (series : List Field)
    (labelSets : List Labels) (columns : List Field) : Frame where
  name := wide.name
  refId := wide.refId
  fields := longTime time slots labelSets
    :: (columns ++ (SeriesGrid.ofFields series).keys.map (textColumn series slots.length))
  info := some (wide.infoWithShape .timeSeriesLong)

/-- Nothing stops a whole grid from being made long. -/
theorem wideToLong_eq : ∃ columns, List.Forall₂ (LongColumn series slots type) names columns ∧
    wide.wideToLong = .ok (longFrame wide time slots series labelSets columns) := by
  have isSeries := grid.inRoles.isSeries grid.series_ne_nil
  obtain ⟨kind, timeField, -, values⟩ := seriesRead_of_isSeries isSeries
  rw [if_pos grid.inRoles.factorFields_eq] at kind
  rw [grid.inRoles.valueFields_eq] at values
  have read : time.times = .ok slots := Field.times_eq_ok_iff.2 grid.times
  have types : names.mapM (SeriesGrid.ofFields series).columnType = .ok (names.map type) := by
    rw [mapM_eq_ok_iff, List.forall₂_map_right_iff, List.forall₂_same]
    intro name member
    exact grid.whole.columnType_eq member
  have order : (rowsByTime slots).map Prod.snd = List.range slots.length := by
    rw [rowsByTime_eq grid.ascending, List.zipIdx_map_snd, List.range_eq_range']
  obtain ⟨columns, made, isLong⟩ := grid.columns_eq
  refine ⟨columns, isLong, ?_⟩
  unfold wideToLong
  dsimp only
  rw [if_neg (by simp [kind]), timeField, values, grid.rowCount_eq, grid.whole.firstRepeated?]
  simp only [bind, Except.bind, read, grid.whole.names_eq, types, order]
  simp only [bind, Except.bind] at made
  rw [made]
  have times : ((rowsByTime slots).flatMap fun row => (SeriesGrid.ofFields series).labelSets.map
      fun _ => (Cell.of row.1 : Cell ⟨.time, false⟩)) =
        slots.flatMap fun slot => labelSets.map fun _ => (Cell.of slot : Cell ⟨.time, false⟩) := by
    have instants : slots = (rowsByTime slots).map Prod.fst := by
      rw [rowsByTime_eq grid.ascending, List.zipIdx_map_fst]
    conv_rhs => rw [instants]
    rw [grid.whole.labelSets_eq, List.flatMap_map]
  rw [times]
  rfl

section LongFrame

variable {columns : List Field}
variable (long : List.Forall₂ (LongColumn series slots type) names columns)

include long

/-- The value fields of the result hold numbers or truth values, as those of the grid do. -/
theorem columns_observed : ∀ field ∈ columns, field.type.kind.isObserved = true := by
  intro field member
  obtain ⟨name, inNames, here⟩ := exists_left_of_forall₂ long member
  obtain ⟨labels, others, some⟩ := List.exists_cons_of_ne_nil grid.whole.someLabels
  have inSets : labels ∈ labelSets := by simp [some]
  obtain ⟨source, inSeries, -, -, named⟩ := grid.whole.field?_eq_some inSets inNames
  rw [here.typed, ← named, ← grid.whole.types source inSeries]
  exact grid.observed source inSeries

theorem longFrame_inRoles : (longFrame wide time slots series labelSets columns).InRoles
    (longTime time slots labelSets) columns
    ((SeriesGrid.ofFields series).keys.map (textColumn series slots.length)) := by
  refine ⟨rfl, rfl, grid.columns_observed long, fun field member => ?_⟩
  obtain ⟨key, -, rfl⟩ := List.mem_map.1 member
  rfl

omit grid long in
theorem values_longTime : (longTime time slots labelSets).column.values =
    slots.flatMap fun slot => labelSets.map fun _ => Value.of .time slot := by
  simp [longTime, Field.withColumn, Column.values, Cells.values, List.map_flatMap]

omit long in
theorem values_textColumn (key : String) :
    (textColumn series slots.length key).column.values =
      (List.range slots.length).flatMap fun _ => labelSets.map fun labels =>
        Value.of .string ((labels.get? key).getD "") := by
  have repeated : List.replicate slots.length (labelSets.map fun labels => (labels.get? key).getD "")
      = (List.range slots.length).map fun _ => labelSets.map fun labels =>
          (labels.get? key).getD "" := by
    rw [List.map_const', List.length_range]
  simp only [textColumn, Column.values, Cells.values, SeriesGrid.labelTexts,
    grid.whole.labelSets_eq, repeated, ← List.flatMap_def, List.map_flatMap, List.map_map]
  rfl

/-- A row of the result for every slot and label set. -/
theorem longFrame_timeAt? {slot set : Nat} (inSets : set < labelSets.length) :
    (longFrame wide time slots series labelSets columns).timeAt? (slot * labelSets.length + set) =
      slots[slot]? := by
  rw [timeAt?, (grid.longFrame_inRoles long).timeFields_eq, List.head?_cons, Option.bind_some,
    Column.get?_eq_values, values_longTime,
    getElem?_flatMap_map slots labelSets (fun slot _ => Value.of .time slot) slot inSets]
  cases slots[slot]? <;> rfl

/-- Under the name of an observed field stands the cell of the field with these labels. -/
theorem longFrame_valueAt? {name : String} {slot set : Nat} (inNames : name ∈ names)
    (inside : slot < slots.length) (inSets : set < labelSets.length) :
    (longFrame wide time slots series labelSets columns).valueAt? name
        (slot * labelSets.length + set) =
      ((SeriesGrid.ofFields series).field? name labelSets[set]).bind (·.column.get? slot) := by
  obtain ⟨column, inColumns, isColumn⟩ := exists_right_of_forall₂ long inNames
  have isThere : (columns.find? (·.name == name)).isSome := by
    rw [List.find?_isSome]
    exact ⟨column, inColumns, by simp [isColumn.named]⟩
  obtain ⟨found, isFound⟩ := Option.isSome_iff_exists.1 isThere
  have named : found.name = name := by simpa using List.find?_some isFound
  obtain ⟨other, -, here⟩ := exists_left_of_forall₂ long (List.mem_of_find?_eq_some isFound)
  have same : other = name := here.named.symm.trans named
  subst same
  obtain ⟨field, isField, cell, cellFound⟩ :=
    grid.cell_eq inNames (List.getElem_mem inSets) inside
  rw [valueAt?, (grid.longFrame_inRoles long).valueFields_eq, isFound, Option.bind_some,
    Column.get?_eq_values, here.values, grid.columnValues_eq,
    getElem?_flatMap_map (List.range slots.length) labelSets _ slot inSets,
    List.getElem?_range inside, isField]
  simp [cellFound]

/-- Under the name of a key stands the text that the labels have for it. -/
theorem longFrame_factorAt? {key : String} {slot set : Nat}
    (inKeys : key ∈ (SeriesGrid.ofFields series).keys) (inside : slot < slots.length)
    (inSets : set < labelSets.length) :
    (longFrame wide time slots series labelSets columns).factorAt? key
        (slot * labelSets.length + set) =
      some (.of .string ((labelSets[set].get? key).getD "")) := by
  have found : ((SeriesGrid.ofFields series).keys.map (textColumn series slots.length)).find?
      (·.name == key) = some (textColumn series slots.length key) := by
    have isThere : ((SeriesGrid.ofFields series).keys.find? (· == key)).isSome := by
      rw [List.find?_isSome]
      exact ⟨key, inKeys, by simp⟩
    obtain ⟨other, isKey⟩ := Option.isSome_iff_exists.1 isThere
    have same : other = key := by simpa using List.find?_some isKey
    subst same
    rw [List.find?_map]
    exact congrArg (Option.map _) isKey
  rw [factorAt?, (grid.longFrame_inRoles long).factorFields_eq, found, Option.bind_some,
    Column.get?_eq_values, grid.values_textColumn,
    getElem?_flatMap_map (List.range slots.length) labelSets _ slot inSets,
    List.getElem?_range inside]
  rfl

theorem longFrame_rowCount :
    (longFrame wide time slots series labelSets columns).rowCount =
      .ok (slots.length * labelSets.length) := by
  refine rowCount_eq_ok_iff.2 ⟨nofun, fun field member => ?_⟩
  rw [(grid.longFrame_inRoles long).fields] at member
  rw [← Column.length_values]
  rcases List.mem_cons.1 member with rfl | member
  · rw [values_longTime, length_flatMap_map]
  · rcases List.mem_append.1 member with isValue | isText
    · obtain ⟨name, -, here⟩ := exists_left_of_forall₂ long isValue
      rw [here.values, grid.columnValues_eq, length_flatMap_map, List.length_range]
    · obtain ⟨key, -, rfl⟩ := List.mem_map.1 isText
      rw [grid.values_textColumn, length_flatMap_map, List.length_range]

end LongFrame

end Frame.WideGrid

end Columnar
