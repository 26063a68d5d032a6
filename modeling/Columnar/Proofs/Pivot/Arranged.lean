import Columnar.Proofs.Frame.Table
import Columnar.Proofs.Pivot.Wide
import Columnar.Proofs.Pivot.Grid

/-! Wide frames that are grids up to order. When every label set has a field of every name, the
fields and the rows can be put in order, and the grid that comes out is made long into the same frame
as the fields and rows as they stood. -/
namespace Columnar

namespace Field

/-- When no field comes twice, all of them have places of their own. -/
theorem places_of_firstRepeated? {seen fields : List Field}
    (none : firstRepeated? seen fields = none) :
    (fields.map place).Nodup ∧ ∀ field ∈ fields, ∀ other ∈ seen, other.place ≠ field.place := by
  induction fields generalizing seen with
  | nil => exact ⟨.nil, List.forall_mem_nil _⟩
  | cons field rest ih =>
    rw [firstRepeated?] at none
    split at none
    next => cases none
    next new =>
      obtain ⟨distinct, unseen⟩ := ih none
      have here : ∀ other ∈ seen, other.place ≠ field.place := by
        intro other member same
        exact new (List.any_eq_true.2 ⟨other, member, (sameSeries_iff other field).2 same⟩)
      refine ⟨List.nodup_cons.2 ⟨fun again => ?_, distinct⟩, List.forall_mem_cons.2 ⟨here, ?_⟩⟩
      · obtain ⟨later, inRest, same⟩ := List.mem_map.1 again
        exact unseen later inRest field (by simp) same.symm
      · intro later inRest other member
        exact unseen later inRest other (by simp [member])

end Field

section Order

variable {times : List Instant}

theorem rowsByTime_perm (times : List Instant) : (rowsByTime times).Perm times.zipIdx :=
  List.mergeSort_perm ..

theorem mem_rowsByTime {time : Instant} {row : Nat} :
    (time, row) ∈ rowsByTime times ↔ times[row]? = some time := by
  rw [(rowsByTime_perm times).mem_iff, List.mk_mem_zipIdx_iff_getElem?]

theorem rowsByTime_sorted (times : List Instant) :
    (rowsByTime times).Pairwise fun a b => a.1.atMost b.1 = true := by
  apply List.pairwise_mergeSort
  · intro a b c first next
    exact Instant.atMost_trans first next
  · intro a b
    exact Instant.atMost_total a.1 b.1

/-- Instants that differ are strictly ascending once the rows are in order. -/
theorem rowsByTime_ascending (distinct : times.Nodup) :
    ((rowsByTime times).map Prod.fst).Pairwise fun a b => a.before b = true := by
  have once : ((rowsByTime times).map Prod.fst).Nodup := by
    rw [((rowsByTime_perm times).map Prod.fst).nodup_iff, List.zipIdx_map_fst]
    exact distinct
  have ordered : ((rowsByTime times).map Prod.fst).Pairwise fun a b => a.atMost b = true :=
    List.pairwise_map.2 (rowsByTime_sorted times)
  exact (ordered.and once).imp fun both => Instant.before_of_atMost both.1 both.2

end Order

namespace Frame

/-- What is found in a frame that is made long. -/
structure Unpivots (wide : Frame) (time : Field) (rows : Nat) (times : List Instant) : Prop where
  isSeries : wide.IsSeries time
  noFactors : wide.factorFields = []
  counted : wide.rowCount = .ok rows
  read : time.times = .ok times
  distinct : (wide.valueFields.map Field.place).Nodup

variable {wide long : Frame} {time : Field} {rows : Nat} {times : List Instant}

theorem unpivots_of_wideToLong (made : wide.wideToLong = .ok long) :
    ∃ time rows times, wide.Unpivots time rows times := by
  unfold wideToLong at made
  dsimp only at made
  split at made
  next => cases made
  next layout =>
    have isWide : wide.seriesRoles.kind = .wide := not_not.1 layout
    have known : wide.seriesRoles.kind ≠ .not := by simp [isWide]
    obtain ⟨time, isSeries⟩ := isSeries_of_kind known
    obtain ⟨-, timeField, -, values⟩ := seriesRead_of_isSeries isSeries
    rw [timeField, values] at made
    obtain ⟨found, same, made⟩ := bind_eq_ok_iff.1 made
    cases same
    obtain ⟨rows, counted, made⟩ := bind_eq_ok_iff.1 made
    obtain ⟨times, read, made⟩ := bind_eq_ok_iff.1 made
    split at made
    next => cases made
    next none =>
      exact ⟨time, rows, times, isSeries, isSeries.kind_eq_wide_iff.1 isWide, counted, read,
        (Field.places_of_firstRepeated? none).1⟩

/-- A wide frame that is a grid up to order: with rows, no two of one instant, and with label sets
of the same keys, each of them with a field of every name and of the one type of this name. -/
structure Regular (wide : Frame) : Prop where
  someRow : wide.rowCount ≠ .ok 0
  times : ∀ first second time, wide.timeAt? first = some time → wide.timeAt? second = some time →
    first = second
  keys : ∃ keys, keys ≠ [] ∧ ∀ field ∈ wide.valueFields, field.labels.keys = keys
  whole : ∀ first ∈ wide.valueFields, ∀ second ∈ wide.valueFields,
    ∃ field ∈ wide.valueFields, field.name = first.name ∧ field.labels = second.labels
  types : ∀ first ∈ wide.valueFields, ∀ second ∈ wide.valueFields, first.name = second.name →
    first.type = second.type

/-- The label sets of a frame, in the order in which they are first met. -/
abbrev labelSets (wide : Frame) : List Labels := (SeriesGrid.ofFields wide.valueFields).labelSets

/-- The names of the observed fields of a frame, in the order in which they are first met. -/
abbrev seriesNames (wide : Frame) : List String := (SeriesGrid.ofFields wide.valueFields).names

/-- The type of the fields of a name. -/
def seriesType (wide : Frame) (name : String) : FieldType :=
  match wide.valueFields.find? (·.name == name) with
  | some field => field.type
  | none => ⟨.bool, false⟩

/-- The field has a place, and the cells of the field of the frame there in another order. -/
def Arranged (wide : Frame) (order : List Nat) (place : Labels × String) (field : Field) : Prop :=
  ∃ source ∈ wide.valueFields, source.place = place ∧
    field = source.withColumn (selectCells source.column order)

theorem mem_labelSets {labels : Labels} :
    labels ∈ wide.labelSets ↔ ∃ field ∈ wide.valueFields, field.labels = labels := by
  rw [labelSets, SeriesGrid.ofFields, List.mem_eraseDups, List.mem_map]

theorem mem_seriesNames {name : String} :
    name ∈ wide.seriesNames ↔ ∃ field ∈ wide.valueFields, field.name = name := by
  rw [seriesNames, SeriesGrid.ofFields, List.mem_eraseDups, List.mem_map]

namespace Regular

variable (regular : wide.Regular)

include regular

theorem seriesType_eq {field : Field} (member : field ∈ wide.valueFields) :
    wide.seriesType field.name = field.type := by
  have isThere : (wide.valueFields.find? (·.name == field.name)).isSome := by
    rw [List.find?_isSome]
    exact ⟨field, member, by simp⟩
  obtain ⟨found, isFound⟩ := Option.isSome_iff_exists.1 isThere
  have named : found.name = field.name := by simpa using List.find?_some isFound
  rw [seriesType, isFound]
  exact regular.types found (List.mem_of_find?_eq_some isFound) field member named

/-- Every place has its field. -/
theorem field?_eq_some {labels : Labels} {name : String} (inSets : labels ∈ wide.labelSets)
    (inNames : name ∈ wide.seriesNames) :
    ∃ source ∈ wide.valueFields, (SeriesGrid.ofFields wide.valueFields).field? name labels =
      some source ∧ source.place = (labels, name) := by
  obtain ⟨first, inFirst, rfl⟩ := mem_seriesNames.1 inNames
  obtain ⟨second, inSecond, rfl⟩ := mem_labelSets.1 inSets
  obtain ⟨field, member, named, labelled⟩ := regular.whole first inFirst second inSecond
  have isThere :
      ((SeriesGrid.ofFields wide.valueFields).field? first.name second.labels).isSome := by
    rw [SeriesGrid.field?, List.find?_isSome]
    exact ⟨field, member, by simp [named, labelled]⟩
  obtain ⟨found, isFound⟩ := Option.isSome_iff_exists.1 isThere
  have isPlace := List.find?_some isFound
  simp only [Bool.and_eq_true, beq_iff_eq] at isPlace
  exact ⟨found, List.mem_of_find?_eq_some isFound, isFound, Prod.ext isPlace.2 isPlace.1⟩

/-- The fields of a frame can be arranged as a grid. -/
theorem exists_arranged (order : List Nat) :
    ∃ series, List.Forall₂ (wide.Arranged order) (wide.labelSets ×ˢ wide.seriesNames) series := by
  apply exists_forall₂
  rintro ⟨labels, name⟩ member
  obtain ⟨inSets, inNames⟩ := List.mem_product.1 member
  obtain ⟨source, isValue, -, place⟩ := regular.field?_eq_some inSets inNames
  exact ⟨_, source, isValue, place, rfl⟩

/-- The type of the column of a name is that of the fields of this name. -/
theorem columnType_eq {name : String} (inNames : name ∈ wide.seriesNames) :
    (SeriesGrid.ofFields wide.valueFields).columnType name = .ok (wide.seriesType name) := by
  have found : ∃ fields : List Field,
      wide.labelSets.map ((SeriesGrid.ofFields wide.valueFields).field? name) = fields.map some ∧
        ∀ field ∈ fields, field.type = wide.seriesType name :=
    exists_map_some fun labels inSets => by
      obtain ⟨source, isValue, here, place⟩ := regular.field?_eq_some inSets inNames
      obtain ⟨-, rfl⟩ : source.labels = labels ∧ source.name = name := Prod.mk.inj place
      exact ⟨source, here, (regular.seriesType_eq isValue).symm⟩
  obtain ⟨fields, here, same⟩ := found
  refine SeriesGrid.columnType_of_fields here (fun none => ?_) same
  rw [none, List.map_nil, List.map_eq_nil_iff] at here
  obtain ⟨field, isValue, -⟩ := mem_seriesNames.1 inNames
  exact List.ne_nil_of_mem (mem_labelSets.2 ⟨field, isValue, rfl⟩) here

end Regular
/-- Fields whose labels have the same keys make up a grid of these keys. -/
theorem keys_ofFields {fields : List Field} {keys : List String} (some : fields ≠ [])
    (same : ∀ field ∈ fields, field.labels.keys = keys) :
    (SeriesGrid.ofFields fields).keys = keys := by
  obtain ⟨first, rest, rfl⟩ := List.exists_cons_of_ne_nil some
  rw [← same first (by simp)]
  apply Labels.keys_eq_of_mem
  intro key
  have hasKey : ∀ field ∈ first :: rest,
      (field.labels.get? key).isSome = true ↔ key ∈ first.labels.keys := by
    intro field member
    rw [← Labels.mem_keys, same field member, same first (by simp)]
  rw [Labels.mem_keys, Labels.isSome_get?_foldl_extend Field.labels]
  constructor
  · rintro (none | ⟨field, member, isKey⟩)
    · cases none
    · exact (hasKey field member).1 isKey
  · intro isKey
    exact .inr ⟨first, by simp, (hasKey first (by simp)).2 isKey⟩

/-- The instants of a list in order, and the rows at which they stood. -/
abbrev slotsOf (times : List Instant) : List Instant := (rowsByTime times).map Prod.fst

abbrev orderOf (times : List Instant) : List Nat := (rowsByTime times).map Prod.snd

/-- The frame with its rows and fields in order. -/
def arrangedBy (wide : Frame) (time : Field) (times : List Instant) (series : List Field) : Frame :=
  { wide with fields := time.ofSlots (slotsOf times) :: series }

namespace Unpivots

variable {series : List Field} (parts : wide.Unpivots time rows times) (regular : wide.Regular)
variable (arranged :
  List.Forall₂ (wide.Arranged (orderOf times)) (wide.labelSets ×ˢ wide.seriesNames) series)

include parts

theorem length_rowsByTime : (rowsByTime times).length = rows := by
  rw [(rowsByTime_perm times).length_eq, List.length_zipIdx]
  exact length_times parts.counted parts.isSeries parts.read

theorem length_slotsOf : (slotsOf times).length = rows := by
  rw [List.length_map, parts.length_rowsByTime]

/-- Every row has its place in the order. -/
theorem inside_orderOf {source : Field} (isValue : source ∈ wide.valueFields) :
    ∀ row ∈ orderOf times, row < source.column.size := by
  intro row member
  obtain ⟨⟨instant, row⟩, inRows, rfl⟩ := List.mem_map.1 member
  rw [(rowCount_eq_ok_iff.1 parts.counted).2 source (List.mem_filter.1 isValue).1,
    ← length_times parts.counted parts.isSeries parts.read]
  exact (List.getElem?_eq_some_iff.1 (mem_rowsByTime.1 inRows)).1

include regular

theorem nodup_times : times.Nodup := by
  rw [List.nodup_iff_injective_getElem]
  rintro ⟨first, inFirst⟩ ⟨second, inSecond⟩ same
  have one : wide.timeAt? first = some times[first] := by
    rw [timeAt?_eq parts.isSeries parts.read, List.getElem?_eq_getElem inFirst]
  have two : wide.timeAt? second = some times[first] := by
    rw [timeAt?_eq parts.isSeries parts.read, List.getElem?_eq_getElem inSecond]
    exact congrArg some same.symm
  exact Fin.ext (regular.times first second _ one two)

/-- The instants in order are those of the frame, each once. -/
theorem distinctTimes : wide.DistinctTimes (slotsOf times) := by
  refine ⟨fun instant => ?_, rowsByTime_ascending (parts.nodup_times regular)⟩
  simp only [timeAt?_eq parts.isSeries parts.read, ← mem_rowsByTime]
  exact ⟨fun member => by simpa using member, fun ⟨row, member⟩ => List.mem_map.2 ⟨_, member, rfl⟩⟩

/-- The row at a place in the order is the one with the instant there. -/
theorem orderOf_getElem? {row slot : Nat} {instant : Instant}
    (atRow : wide.timeAt? row = some instant) (atSlot : (slotsOf times)[slot]? = some instant) :
    (orderOf times)[slot]? = some row := by
  rw [List.getElem?_map, Option.map_eq_some_iff] at atSlot ⊢
  obtain ⟨⟨found, other⟩, here, rfl⟩ := atSlot
  have atOther : wide.timeAt? other = some found := by
    rw [timeAt?_eq parts.isSeries parts.read]
    exact mem_rowsByTime.1 (List.mem_of_getElem? here)
  exact ⟨_, here, regular.times other row found atOther atRow⟩

include arranged

omit parts regular in
theorem places_arranged : series.map Field.place = wide.labelSets ×ˢ wide.seriesNames := by
  have placed : List.Forall₂ (fun place field => Field.place field = id place)
      (wide.labelSets ×ˢ wide.seriesNames) series := by
    apply arranged.imp
    rintro place field ⟨source, -, here, rfl⟩
    exact here
  rw [map_eq_of_forall₂ placed, List.map_id]

theorem wideGrid : (wide.arrangedBy time times series).WideGrid (time.ofSlots (slotsOf times))
    (slotsOf times) series wide.labelSets wide.seriesNames wide.seriesType := by
  obtain ⟨first, rest, some⟩ := List.exists_cons_of_ne_nil parts.isSeries.values
  have isValue : first ∈ wide.valueFields := by simp [some]
  refine ⟨rfl, rfl, ?_, rowsByTime_ascending (parts.nodup_times regular), ?_, ?_, ?_⟩
  · simp [Field.ofSlots, Field.withColumn, Column.values, Cells.values, Function.comp_def]
  · refine ⟨places_arranged arranged, nodup_eraseDups _, nodup_eraseDups _, ?_, ?_, ?_⟩
    · exact List.ne_nil_of_mem (mem_labelSets.2 ⟨first, isValue, rfl⟩)
    · exact List.ne_nil_of_mem (mem_seriesNames.2 ⟨first, isValue, rfl⟩)
    · intro field member
      obtain ⟨place, -, source, isSource, -, rfl⟩ := exists_left_of_forall₂ arranged member
      exact (regular.seriesType_eq isSource).symm
  · intro field member
    obtain ⟨place, -, source, isSource, -, rfl⟩ := exists_left_of_forall₂ arranged member
    exact (List.mem_filter.1 isSource).2
  · intro field member
    obtain ⟨place, -, source, isSource, -, rfl⟩ := exists_left_of_forall₂ arranged member
    refine (size_selectCells (parts.inside_orderOf isSource)).trans ?_
    rw [List.length_map, List.length_map]

/-- The field of a place in order is the field there as it stood, with the cells in order. -/
theorem field?_arranged {source : Field} (isValue : source ∈ wide.valueFields) :
    (SeriesGrid.ofFields series).field? source.name source.labels =
      some (source.withColumn (selectCells source.column (orderOf times))) := by
  have grid := parts.wideGrid regular arranged
  have placed : source.place ∈ wide.labelSets ×ˢ wide.seriesNames :=
    List.mem_product.2 ⟨mem_labelSets.2 ⟨source, isValue, rfl⟩,
      mem_seriesNames.2 ⟨source, isValue, rfl⟩⟩
  obtain ⟨field, member, other, isOther, place, rfl⟩ := exists_right_of_forall₂ arranged placed
  have same : other = source := List.inj_on_of_nodup_map parts.distinct isOther isValue place
  subst same
  exact grid.whole.field?_of_mem member

theorem columnValues_arranged {name : String} (inNames : name ∈ wide.seriesNames) :
    (SeriesGrid.ofFields wide.valueFields).columnValues (orderOf times) name =
      (SeriesGrid.ofFields series).columnValues (List.range (slotsOf times).length) name := by
  have grid := parts.wideGrid regular arranged
  have rows : orderOf times = (List.range (slotsOf times).length).map fun slot =>
      ((orderOf times)[slot]?).getD 0 := by
    apply List.ext_getElem
    · simp
    · intro slot first second
      have inside : slot < (rowsByTime times).length := by simpa using first
      simp [inside]
  rw [grid.columnValues_eq, SeriesGrid.columnValues, rows, List.flatMap_map]
  apply List.flatMap_congr
  intro slot inRange
  rw [List.map_map]
  apply List.map_congr_left
  intro labels inSets
  obtain ⟨source, isValue, found, place⟩ := regular.field?_eq_some inSets inNames
  obtain ⟨rfl, rfl⟩ : source.labels = labels ∧ source.name = name := Prod.mk.inj place
  have inside : slot < (orderOf times).length := by simpa using List.mem_range.1 inRange
  rw [Function.comp_apply, found, parts.field?_arranged regular arranged isValue]
  simp only [Option.map_some, Option.bind_some, Field.withColumn,
    get?_selectCells (parts.inside_orderOf isValue), List.getElem?_eq_getElem inside,
    Option.getD_some]

/-- Made long, the frame in order is the frame as it stood. -/
theorem wideToLong_arranged :
    ∃ columns, List.Forall₂ (WideGrid.LongColumn series (slotsOf times) wide.seriesType)
        wide.seriesNames columns ∧
      wide.wideToLong = .ok (WideGrid.longFrame (wide.arrangedBy time times series)
        (time.ofSlots (slotsOf times)) (slotsOf times) series wide.labelSets columns) := by
  have grid := parts.wideGrid regular arranged
  obtain ⟨keys, -, hasKeys⟩ := regular.keys
  obtain ⟨kind, timeField, -, values⟩ := seriesRead_of_isSeries parts.isSeries
  rw [if_pos parts.noFactors] at kind
  obtain ⟨columns, made, isLong⟩ := grid.columns_eq
  refine ⟨columns, isLong, ?_⟩
  have once : Field.firstRepeated? [] wide.valueFields = none :=
    Field.firstRepeated?_eq_none parts.distinct fun _ _ => List.forall_mem_nil _
  have types : (SeriesGrid.ofFields wide.valueFields).names.mapM
      (SeriesGrid.ofFields wide.valueFields).columnType =
        .ok (wide.seriesNames.map wide.seriesType) := by
    rw [mapM_eq_ok_iff, List.forall₂_map_right_iff, List.forall₂_same]
    intro name member
    exact regular.columnType_eq member
  have same : ((wide.seriesNames.zip (wide.seriesNames.map wide.seriesType)).mapM
      fun pair => do
        let column ← Column.ofValues pair.2
          ((SeriesGrid.ofFields wide.valueFields).columnValues (orderOf times) pair.1)
        return { name := pair.1, labels := Labels.empty, config := none, column : Field }) =
      (.ok columns : Except Error (List Field)) := by
    rw [mapM_eq_ok_iff] at made ⊢
    apply forall₂_imp_of_mem made
    rintro ⟨name, type⟩ member field here
    have inNames : name ∈ wide.seriesNames := (List.of_mem_zip member).1
    dsimp only at here ⊢
    rwa [parts.columnValues_arranged regular arranged inNames]
  have texts : ∀ key, ((SeriesGrid.ofFields wide.valueFields).labelTexts rows key) =
      (SeriesGrid.ofFields series).labelTexts (slotsOf times).length key := by
    intro key
    rw [SeriesGrid.labelTexts, SeriesGrid.labelTexts, grid.whole.labelSets_eq, parts.length_slotsOf]
  have allKeys : (SeriesGrid.ofFields wide.valueFields).keys = (SeriesGrid.ofFields series).keys := by
    rw [keys_ofFields parts.isSeries.values hasKeys, keys_ofFields grid.series_ne_nil]
    intro field member
    obtain ⟨place, -, source, isSource, -, rfl⟩ := exists_left_of_forall₂ arranged member
    exact hasKeys source isSource
  have instants : ((slotsOf times).flatMap fun slot => wide.labelSets.map fun _ =>
      (Cell.of slot : Cell ⟨.time, false⟩)) =
        (rowsByTime times).flatMap fun row => wide.labelSets.map fun _ => Cell.of row.1 :=
    List.flatMap_map ..
  unfold wideToLong
  dsimp only
  rw [if_neg (by simp [kind]), timeField, values, parts.counted, once]
  simp only [bind, Except.bind, parts.read, types]
  simp only [bind, Except.bind] at same
  rw [same, allKeys]
  simp only [texts]
  rw [WideGrid.longFrame, WideGrid.longTime, instants]
  rfl

omit arranged in
/-- Nothing stops a frame that is a grid up to order from being made long. -/
theorem exists_wideToLong : ∃ long, wide.wideToLong = .ok long := by
  obtain ⟨series, arranged⟩ := regular.exists_arranged (orderOf times)
  obtain ⟨columns, -, made⟩ := parts.wideToLong_arranged regular arranged
  exact ⟨_, made⟩

end Unpivots

end Frame

end Columnar
