import Columnar.Proofs.Pivot.Accepted
import Columnar.Proofs.Pivot.Gathering

/-! Which frames can be made long, and what stands in the long frame then: for every row, in the order
of time, and every label set one row more, with the time, with a cell of one field for every name or
null where there is no such field, and with a text for every label key. -/
namespace Columnar

/-- Rows of one time stay in their order. -/
theorem rowsByTime_stable (times : List Instant) : (rowsByTime times).Pairwise fun a b =>
    a.1.before b.1 = true ∨ a.1 = b.1 ∧ a.2 < b.2 := by
  have numbered : (times.zipIdx.map Prod.snd).Nodup := by
    rw [List.zipIdx_map_snd]
    exact List.nodup_range'
  have once : (rowsByTime times).Nodup := (rowsByTime_perm times).nodup_iff.2 numbered.of_map
  have places := eraseDups_firstMet (rowsByTime times)
  rw [eraseDups_of_nodup once] at places
  have before : times.zipIdx.Pairwise fun a b => [a, b].Sublist times.zipIdx :=
    List.pairwise_iff_forall_sublist.2 id
  have sorted := rowsByTime_sorted times
  rw [List.pairwise_iff_forall_sublist] at sorted places ⊢
  rintro ⟨t, first⟩ ⟨u, second⟩ pair
  have ordered := sorted pair
  by_cases tied : t = u
  · subst tied
    refine .inr ⟨rfl, ?_⟩
    obtain ⟨inFirst, atFirst⟩ := List.getElem?_eq_some_iff.1
      (mem_rowsByTime.1 (pair.subset (by simp) : (t, first) ∈ rowsByTime times))
    obtain ⟨inSecond, atSecond⟩ := List.getElem?_eq_some_iff.1
      (mem_rowsByTime.1 (pair.subset (by simp) : (t, second) ∈ rowsByTime times))
    have here := places pair
    rcases Nat.lt_trichotomy first second with less | same | more
    · exact less
    · rw [same] at here
      exact absurd here (Nat.lt_irrefl _)
    · -- had they stood the other way round, they still would
      have apart := List.pairwise_iff_getElem.1 before second first (by simpa) (by simpa) more
      have reversed : [(t, second), (t, first)].Sublist times.zipIdx := by
        simpa [atFirst, atSecond] using apart
      have kept : [(t, second), (t, first)].Sublist (rowsByTime times) :=
        List.pair_sublist_mergeSort (fun a b c => Instant.atMost_trans)
          (fun a b => Instant.atMost_total a.1 b.1) ordered reversed
      exact absurd (places kept) (Nat.lt_asymm here)
  · exact .inl (Instant.before_of_atMost ordered tied)

namespace NumberedSeries

variable {series : NumberedSeries} {order : List (Instant × Nat)}

theorem length_visits : (series.visits order).length = order.length * series.labelSets.length := by
  simp [visits, List.length_flatMap]

/-- Where the visit of a row for a label set stands among all visits. -/
theorem getElem?_visits {index set : Nat} {timed : Instant × Nat} {labels : Labels}
    (atIndex : order[index]? = some timed) (atSet : series.labelSets[set]? = some labels) :
    (series.visits order)[index * series.labelSets.length + set]? =
      some ⟨timed.1, timed.2, set, labels⟩ := by
  obtain ⟨inside, here⟩ := List.getElem?_eq_some_iff.1 atSet
  have found := getElem?_flatMap_map order series.labelSets.zipIdx
    (fun timed labelled => (⟨timed.1, timed.2, labelled.2, labelled.1⟩ : Visit)) index
    (List.length_zipIdx.symm ▸ inside)
  simpa [visits, atIndex, here] using found

end NumberedSeries

namespace Frame

/-! ## Frames that can be made long -/

/-- What a frame is that can be made long: a wide time series whose fields have one length, without a
null among the times, in which no two value fields have the same name and labels and all of one name
are of one kind. -/
structure Unpivotable (frame : Frame) : Prop where
  layout : frame.seriesRoles.kind = .wide
  even : ∀ one ∈ frame.fields, ∀ other ∈ frame.fields, one.size = other.size
  timed : ∀ field ∈ frame.timeFields, ∀ row, field.column.get? row ≠ some .null
  once : ∀ (first second : Nat) (one other : Field), frame.valueFields[first]? = some one →
    frame.valueFields[second]? = some other → one.name = other.name → one.labels = other.labels →
      first = second
  kinds : ∀ one ∈ frame.valueFields, ∀ other ∈ frame.valueFields, one.name = other.name →
    one.type.kind = other.type.kind

section Acceptance

variable {frame long : Frame} {time : Field} {rows : Nat} {times : List Instant}

theorem places_nodup_iff {fields : List Field} : (fields.map Field.place).Nodup ↔
    ∀ (first second : Nat) (one other : Field), fields[first]? = some one →
      fields[second]? = some other → one.name = other.name → one.labels = other.labels →
        first = second := by
  constructor
  · intro distinct first second one other atFirst atSecond name labels
    have inside : first < (fields.map Field.place).length := by
      rw [List.length_map]
      exact (List.getElem?_eq_some_iff.1 atFirst).1
    refine (List.getElem?_inj inside distinct).1 ?_
    simp [atFirst, atSecond, Field.place, name, labels]
  · intro once
    rw [List.nodup_iff_getElem?_ne_getElem?]
    intro first second before inside same
    rw [List.length_map] at inside
    have atSecond := List.getElem?_eq_getElem inside
    have atFirst := List.getElem?_eq_getElem (Nat.lt_trans before inside)
    rw [List.getElem?_map, List.getElem?_map, atFirst, atSecond] at same
    obtain ⟨labels, name⟩ := Prod.mk.inj (Option.some.inj same)
    exact absurd (once first second _ _ atFirst atSecond name labels) (Nat.ne_of_lt before)

/-- The columns have types when the fields of each name are of one kind. -/
theorem exists_decided_iff (distinct : (frame.valueFields.map Field.place).Nodup) :
    (∃ types, frame.seriesNames.mapM (SeriesGrid.ofFields frame.valueFields).columnType = .ok types) ↔
      ∀ one ∈ frame.valueFields, ∀ other ∈ frame.valueFields, one.name = other.name →
        one.type.kind = other.type.kind := by
  have found : ∀ field ∈ frame.valueFields,
      (SeriesGrid.ofFields frame.valueFields).field? field.name field.labels = some field :=
    fun field isValue => (SeriesGrid.field?_eq_some_iff distinct).2 ⟨isValue, rfl, rfl⟩
  constructor
  · rintro ⟨types, decided⟩ one isOne other isOther named
    obtain ⟨type, -, typeOf⟩ := exists_right_of_forall₂ (mapM_eq_ok_iff.1 decided)
      (mem_seriesNames.2 ⟨one, isOne, rfl⟩)
    have typed := SeriesGrid.typedAs_of_columnType typeOf
    rw [typed.kind _ (mem_labelSets.2 ⟨one, isOne, rfl⟩) one (found one isOne),
      typed.kind _ (mem_labelSets.2 ⟨other, isOther, rfl⟩) other (named ▸ found other isOther)]
  · intro kinds
    have each : ∀ name ∈ frame.seriesNames,
        ∃ type, (SeriesGrid.ofFields frame.valueFields).columnType name = .ok type ∧ True := by
      intro name inNames
      obtain ⟨field, isValue, rfl⟩ := mem_seriesNames.1 inNames
      have occurs : ∃ labels ∈ (SeriesGrid.ofFields frame.valueFields).labelSets,
          ((SeriesGrid.ofFields frame.valueFields).field? field.name labels).isSome :=
        ⟨field.labels, mem_labelSets.2 ⟨field, isValue, rfl⟩, by rw [found field isValue]; rfl⟩
      obtain ⟨type, decided⟩ := (SeriesGrid.exists_columnType_iff occurs).2
        fun _ _ _ _ one other atOne atOther => by
          obtain ⟨isOne, named, -⟩ := (SeriesGrid.field?_eq_some_iff distinct).1 atOne
          obtain ⟨isOther, alsoNamed, -⟩ := (SeriesGrid.field?_eq_some_iff distinct).1 atOther
          exact kinds one isOne other isOther (named.trans alsoNamed.symm)
      exact ⟨type, decided, trivial⟩
    obtain ⟨types, decided, -⟩ := exists_mapM_ok each
    exact ⟨types, decided⟩

/-- The fields of a frame that can be made long are numbered. -/
theorem Unpivots.exists_numbered (parts : frame.Unpivots time rows times) :
    ∃ series, frame.valueFields.foldlM NumberedSeries.add {} = .ok series ∧
      series.Numbers frame.valueFields := by
  have numbered := NumberedSeries.foldlM_add NumberedSeries.numbers_none (fun _ => Iff.rfl)
    frame.valueFields
  rw [Field.firstRepeated?_eq_none parts.distinct fun _ _ => List.forall_mem_nil _] at numbered
  exact numbered

theorem unpivots_of_unpivotable (unpivotable : frame.Unpivotable) :
    ∃ time rows times, frame.Unpivots time rows times := by
  obtain ⟨time, rows, isSeries, counted⟩ :=
    exists_counted (by rw [unpivotable.layout]; nofun) unpivotable.even
  obtain ⟨times, read⟩ := (exists_times_iff isSeries).2 unpivotable.timed
  exact ⟨time, rows, times, isSeries, isSeries.kind_eq_wide_iff.1 unpivotable.layout, counted, read,
    places_nodup_iff.2 unpivotable.once⟩

/-- Only what can be made long is. -/
theorem unpivotable_of_gather (made : frame.gather = .ok long) : frame.Unpivotable := by
  have whole := made
  rw [gather_eq_wideToLong] at whole
  obtain ⟨time, rows, times, parts⟩ := unpivots_of_wideToLong whole
  have layout := parts.isSeries.kind_eq_wide_iff.2 parts.noFactors
  obtain ⟨series, ran, numbers⟩ := parts.exists_numbered
  have decided : ∃ types,
      frame.seriesNames.mapM (SeriesGrid.ofFields frame.valueFields).columnType = .ok types := by
    rw [gather_of_layout layout parts.isSeries, parts.counted, parts.read, ran] at made
    have steps : (series.decideTypes 0 series.names).bind _ = .ok long := made
    obtain ⟨types, decided, -⟩ := bind_eq_ok_iff.1 steps
    rw [NumberedSeries.decideTypes_eq numbers parts.distinct] at decided
    exact ⟨types, decided⟩
  have even := (exists_rowCount_iff (fields_ne_nil parts.isSeries)).1 ⟨rows, parts.counted⟩
  exact ⟨layout, not_ragged_iff.1 even, (exists_times_iff parts.isSeries).1 ⟨times, parts.read⟩,
    places_nodup_iff.1 parts.distinct, (exists_decided_iff parts.distinct).1 decided⟩

end Acceptance

/-! ## What stands in the long frame -/

/-- The rows of a frame in the order of their times; rows of one time stay in their order. -/
structure ByTime (frame : Frame) (order : List Nat) : Prop where
  rows : ∃ rows, frame.rowCount = .ok rows ∧ order.Perm (List.range rows)
  sorted : order.Pairwise fun first second => ∃ one other,
    frame.timeAt? first = some one ∧ frame.timeAt? second = some other ∧
      (one.before other = true ∨ one = other ∧ first < second)

/-- A field with one cell for every row, in the given order, and every label set of a frame. -/
structure LaidOut (wide : Frame) (order : List Nat) (field : Field)
    (shows : Nat → Labels → Value → Prop) : Prop where
  size : field.column.size = order.length * wide.labelSets.length
  cells : ∀ (index row set : Nat) (labels : Labels), order[index]? = some row →
    wide.labelSets[set]? = some labels → ∃ value,
      field.column.get? (index * wide.labelSets.length + set) = some value ∧ shows row labels value

/-- No value field has the name and the labels. -/
def Lacks (wide : Frame) (name : String) (labels : Labels) : Prop :=
  ∀ source ∈ wide.valueFields, source.name = name → source.labels ≠ labels

/-- The time field of a long frame shows the time of each row. -/
structure TimesOf (wide : Frame) (order : List Nat) (source field : Field) : Prop where
  name : field.name = source.name
  labels : field.labels = source.labels
  config : field.config = source.config
  type : field.type = ⟨.time, false⟩
  cells : wide.LaidOut order field fun row _ value => source.column.get? row = some value

/-- The field of a name in a long frame shows the cells of the fields that had the name, each for its
label set, and nulls where there was no field. -/
structure ValuesOf (wide : Frame) (order : List Nat) (name : String) (field : Field) : Prop where
  named : field.name = name
  unlabelled : field.labels = Labels.empty
  plain : field.config = none
  kind : ∀ source ∈ wide.valueFields, source.name = name → field.type.kind = source.type.kind
  nullable : field.type.nullable = true ↔
    (∃ source ∈ wide.valueFields, source.name = name ∧ source.type.nullable = true) ∨
      ∃ labels ∈ wide.labelSets, wide.Lacks name labels
  cells : wide.LaidOut order field fun row labels value =>
    (∃ source ∈ wide.valueFields, source.name = name ∧ source.labels = labels ∧
      source.column.get? row = some value) ∨ wide.Lacks name labels ∧ value = .null

/-- The field of a label key in a long frame shows the text that the label sets have for it. -/
structure TextsOf (wide : Frame) (order : List Nat) (key : String) (field : Field) : Prop where
  named : field.name = key
  unlabelled : field.labels = Labels.empty
  plain : field.config = none
  type : field.type = ⟨.string, false⟩
  cells : wide.LaidOut order field fun _ labels value =>
    value = .of .string ((labels.get? key).getD "")

/-- The long frame of a wide one, over its rows in the order of time and its label sets in the order of
first meeting: the times, a field for every name, also in the order of first meeting, and a field for
every label key, the keys in their own order. -/
structure LongOf (wide : Frame) (order : List Nat) (keys : List String) (long : Frame) : Prop where
  name : long.name = wide.name
  refId : long.refId = wide.refId
  info : long.info = some (wide.infoWithShape .timeSeriesLong)
  warnings : long.warnings = []
  counted : long.rowCount = .ok (order.length * wide.labelSets.length)
  byTime : wide.ByTime order
  ascending : keys.Pairwise (· < ·)
  known : ∀ key, key ∈ keys ↔ ∃ source ∈ wide.valueFields, key ∈ source.labels.keys
  fields : ∃ source time values texts, wide.timeFields = [source] ∧
    long.fields = time :: (values ++ texts) ∧ wide.TimesOf order source time ∧
      List.Forall₂ (wide.ValuesOf order) wide.seriesNames values ∧
        List.Forall₂ (wide.TextsOf order) keys texts

section Result

variable {wide : Frame} {time field : Field} {rows : Nat} {times : List Instant}
variable {series : NumberedSeries} {types : List FieldType} {appended : LongRows}

theorem Unpivots.byTime (parts : wide.Unpivots time rows times) : wide.ByTime (orderOf times) := by
  refine ⟨⟨rows, parts.counted, ?_⟩, ?_⟩
  · have perm := (rowsByTime_perm times).map Prod.snd
    rw [List.zipIdx_map_snd, ← List.range_eq_range',
      length_times parts.counted parts.isSeries parts.read] at perm
    exact perm
  · rw [orderOf, List.pairwise_map]
    apply (rowsByTime_stable times).imp_of_mem
    intro first second inFirst inSecond sorted
    refine ⟨first.1, second.1, ?_, ?_, sorted⟩
    · rw [timeAt?_eq parts.isSeries parts.read]
      exact mem_rowsByTime.1 inFirst
    · rw [timeAt?_eq parts.isSeries parts.read]
      exact mem_rowsByTime.1 inSecond

/-- What all visits add is laid out over the rows and the label sets. -/
theorem laidOut_of_visits {f : Visit → Value} {shows : Nat → Labels → Value → Prop}
    (numbers : series.Numbers wide.valueFields)
    (values : field.column.values = (series.visits (rowsByTime times)).map f)
    (each : ∀ visit ∈ series.visits (rowsByTime times), shows visit.row visit.labels (f visit)) :
    wide.LaidOut (orderOf times) field shows := by
  have sets : wide.labelSets = series.labelSets := numbers.labelSets.symm
  constructor
  · rw [← Column.length_values, values, List.length_map, NumberedSeries.length_visits, sets,
      List.length_map]
  · intro index row set labels atIndex atSet
    rw [List.getElem?_map, Option.map_eq_some_iff] at atIndex
    obtain ⟨timed, there, rfl⟩ := atIndex
    rw [sets] at atSet ⊢
    have found := NumberedSeries.getElem?_visits there atSet
    refine ⟨_, ?_, each _ (List.mem_of_getElem? found)⟩
    rw [Column.get?_eq_values, values, List.getElem?_map, found]
    rfl

/-- The times of all visits are those of the rows. -/
theorem timesOf (parts : wide.Unpivots time rows times) (numbers : series.Numbers wide.valueFields)
    (holds : appended.Holds series types (series.visits (rowsByTime times))) :
    wide.TimesOf (orderOf times) time
      (time.withColumn ⟨⟨.time, false⟩, ⟨appended.times.map Cell.of⟩⟩) := by
  refine ⟨rfl, rfl, rfl, rfl, ?_⟩
  apply laidOut_of_visits (f := fun visit => .of .time visit.time) numbers
  · simp [Field.withColumn, Column.values, Cells.values, holds.times, Function.comp_def]
  · intro visit member
    have atRow := mem_rowsByTime.1 (NumberedSeries.mem_visits.1 member).1
    rw [Column.get?_eq_values, Field.times_eq_ok_iff.1 parts.read, List.getElem?_map, atRow]
    rfl

theorem lacks_iff (distinct : (wide.valueFields.map Field.place).Nodup) {name : String}
    {labels : Labels} : wide.Lacks name labels ↔
      (SeriesGrid.ofFields wide.valueFields).field? name labels = none := by
  rw [Option.eq_none_iff_forall_ne_some]
  constructor
  · intro lacks source found
    obtain ⟨isValue, named, labelled⟩ := (SeriesGrid.field?_eq_some_iff distinct).1 found
    exact lacks source isValue named labelled
  · intro missing source isValue named labelled
    exact missing source ((SeriesGrid.field?_eq_some_iff distinct).2 ⟨isValue, named, labelled⟩)

/-- A column allows nulls when a field of its name does or a label set has none. -/
theorem nullable_iff_of_typedAs (distinct : (wide.valueFields.map Field.place).Nodup) {name : String}
    {type : FieldType} (typed : (SeriesGrid.ofFields wide.valueFields).TypedAs name type) :
    type.nullable = true ↔
      (∃ source ∈ wide.valueFields, source.name = name ∧ source.type.nullable = true) ∨
        ∃ labels ∈ wide.labelSets, wide.Lacks name labels := by
  rw [typed.nullable]
  constructor
  · rintro ⟨labels, inSets, allowed⟩
    cases there : (SeriesGrid.ofFields wide.valueFields).field? name labels with
    | none => exact .inr ⟨labels, inSets, (lacks_iff distinct).2 there⟩
    | some source =>
      obtain ⟨isValue, named, -⟩ := (SeriesGrid.field?_eq_some_iff distinct).1 there
      exact .inl ⟨source, isValue, named, allowed source there⟩
  · rintro (⟨source, isValue, named, allowed⟩ | ⟨labels, inSets, lacks⟩)
    · refine ⟨source.labels, mem_labelSets.2 ⟨source, isValue, rfl⟩, fun other there => ?_⟩
      rw [(SeriesGrid.field?_eq_some_iff distinct).2 ⟨isValue, named, rfl⟩] at there
      cases there
      exact allowed
    · refine ⟨labels, inSets, fun source there => ?_⟩
      rw [(lacks_iff distinct).1 lacks] at there
      cases there

/-- The values of all visits are those of the fields of their name, or nulls. -/
theorem valuesOf (parts : wide.Unpivots time rows times) (numbers : series.Numbers wide.valueFields)
    {name : String} {position : Nat} {type : FieldType} {column : Column}
    (atName : series.names[position]? = some name)
    (decided : (SeriesGrid.ofFields wide.valueFields).columnType name = .ok type)
    (holds : series.HoldsValues (series.visits (rowsByTime times)) (type, position) column) :
    wide.ValuesOf (orderOf times) name ⟨name, Labels.empty, none, column⟩ := by
  have typed := SeriesGrid.typedAs_of_columnType decided
  have isType : (⟨name, Labels.empty, none, column⟩ : Field).type = type := holds.type
  refine ⟨rfl, rfl, rfl, ?_, ?_, laidOut_of_visits numbers holds.values ?_⟩
  · intro source isValue named
    rw [isType]
    exact (typed.kind source.labels (mem_labelSets.2 ⟨source, isValue, rfl⟩) source
      ((SeriesGrid.field?_eq_some_iff parts.distinct).2 ⟨isValue, named, rfl⟩)).symm
  · rw [isType]
    exact nullable_iff_of_typedAs parts.distinct typed
  · intro visit member
    have atSet := (NumberedSeries.mem_visits.1 member).2
    rw [NumberedSeries.valueAt, NumberedSeries.field?_eq numbers parts.distinct atSet atName]
    cases there : (SeriesGrid.ofFields wide.valueFields).field? name visit.labels with
    | none => exact .inr ⟨(lacks_iff parts.distinct).2 there, rfl⟩
    | some source =>
      obtain ⟨isValue, named, labelled⟩ := (SeriesGrid.field?_eq_some_iff parts.distinct).1 there
      obtain ⟨value, here⟩ := exists_cell_of_visit parts member (List.mem_filter.1 isValue).1
      refine .inl ⟨source, isValue, named, labelled, ?_⟩
      rw [Option.bind_some, here]
      rfl

/-- The texts of all visits are those of the label sets. -/
theorem textsOf (numbers : series.Numbers wide.valueFields) (key : String) :
    wide.TextsOf (orderOf times) key ⟨key, Labels.empty, none, ⟨⟨.string, false⟩,
      ⟨((series.visits (rowsByTime times)).map fun visit => (visit.labels.get? key).getD "").map
        Cell.of⟩⟩⟩ := by
  refine ⟨rfl, rfl, rfl, rfl, ?_⟩
  apply laidOut_of_visits (f := fun visit => .of .string ((visit.labels.get? key).getD "")) numbers
  · simp [Column.values, Cells.values, Function.comp_def]
  · exact fun _ _ => rfl

/-- The keys are those of the labels of all value fields. -/
theorem mem_keys_of_numbers (numbers : series.Numbers wide.valueFields) (key : String) :
    key ∈ series.keys.keys ↔ ∃ source ∈ wide.valueFields, key ∈ source.labels.keys := by
  have none : ¬(Labels.empty.get? key).isSome = true := nofun
  rw [Labels.mem_keys, numbers.keys, Labels.isSome_get?_foldl_extend Field.labels, or_iff_right none]
  simp only [Labels.mem_keys]

/-- What has been appended is the long frame. -/
theorem longOf_withAppended (parts : wide.Unpivots time rows times)
    (numbers : series.Numbers wide.valueFields)
    (decided : wide.seriesNames.mapM (SeriesGrid.ofFields wide.valueFields).columnType = .ok types)
    (holds : appended.Holds series types (series.visits (rowsByTime times))) :
    wide.LongOf (orderOf times) series.keys.keys (wide.withAppended time series appended) := by
  have names : wide.seriesNames = series.names := numbers.names.symm
  have isTime := timesOf parts numbers holds
  have areValues : List.Forall₂ (wide.ValuesOf (orderOf times)) wide.seriesNames
      (List.zipWith (fun name column => ⟨name, Labels.empty, none, column⟩) series.names
        appended.values) := by
    have typeOf := mapM_eq_ok_iff.1 decided
    rw [names] at typeOf
    have lengths := holds.values.length_eq
    rw [List.length_zipIdx, ← typeOf.length_eq] at lengths
    rw [names, List.forall₂_iff_get]
    refine ⟨by simp [lengths], fun index inNames inColumns => ?_⟩
    have atName := List.getElem?_eq_getElem inNames
    obtain ⟨type, atType, decidedType⟩ := getElem?_of_forall₂ typeOf atName
    have typed : types.zipIdx[index]? = some (type, index) := by simp [List.getElem?_zipIdx, atType]
    obtain ⟨column, atColumn, valueOf⟩ := getElem?_of_forall₂ holds.values typed
    obtain ⟨inside, rfl⟩ := List.getElem?_eq_some_iff.1 atColumn
    simp only [List.get_eq_getElem, List.getElem_zipWith]
    exact valuesOf parts numbers atName decidedType valueOf
  have areTexts : List.Forall₂ (wide.TextsOf (orderOf times)) series.keys.keys
      (List.zipWith (fun key texts => ⟨key, Labels.empty, none, ⟨⟨.string, false⟩, ⟨texts.map Cell.of⟩⟩⟩)
        series.keys.keys appended.texts) := by
    rw [holds.texts, List.zipWith_map_right, List.zipWith_self, List.forall₂_map_right_iff,
      List.forall₂_same]
    exact fun key _ => textsOf numbers key
  refine ⟨rfl, rfl, rfl, rfl, ?_, parts.byTime, series.keys.keys_ascending,
    mem_keys_of_numbers numbers, ?_⟩
  · refine rowCount_eq_ok_iff.2 ⟨List.cons_ne_nil _ _, fun field member => ?_⟩
    rcases List.mem_cons.1 member with rfl | member
    · exact isTime.cells.size
    · rcases List.mem_append.1 member with isValue | isText
      · obtain ⟨name, -, here⟩ := exists_left_of_forall₂ areValues isValue
        exact here.cells.size
      · obtain ⟨key, -, here⟩ := exists_left_of_forall₂ areTexts isText
        exact here.cells.size
  · exact ⟨time, _, _, _, parts.isSeries.time, rfl, isTime, areValues, areTexts⟩

end Result

/-- A frame can be made long when it is a wide time series of one length without a null among its
times, no two of its value fields have the same name and labels, and those of one name are of one kind.
The long frame shows every cell of the wide one, a row for every row in the order of time and every
label set. It is the same whether rows or columns are made one after the other. -/
theorem gather_accepts_iff (frame : Frame) :
    frame.gather = frame.wideToLong ∧
      ((∃ long, frame.gather = .ok long) ↔ frame.Unpivotable) ∧
      ∀ long, frame.gather = .ok long → ∃ order keys, frame.LongOf order keys long := by
  have made_of_unpivotable : frame.Unpivotable →
      ∃ long, frame.gather = .ok long ∧ ∃ order keys, frame.LongOf order keys long := by
    intro unpivotable
    obtain ⟨time, rows, times, parts⟩ := unpivots_of_unpivotable unpivotable
    obtain ⟨series, ran, numbers⟩ := parts.exists_numbered
    obtain ⟨types, decided⟩ := (exists_decided_iff parts.distinct).2 unpivotable.kinds
    obtain ⟨appended, holds, made⟩ := exists_gather parts numbers decided ran
    exact ⟨_, made, _, _, longOf_withAppended parts numbers decided holds⟩
  refine ⟨frame.gather_eq_wideToLong, ⟨?_, fun unpivotable => ?_⟩, fun long made => ?_⟩
  · rintro ⟨long, made⟩
    exact unpivotable_of_gather made
  · obtain ⟨long, made, -⟩ := made_of_unpivotable unpivotable
    exact ⟨long, made⟩
  · obtain ⟨other, also, isLong⟩ := made_of_unpivotable (unpivotable_of_gather made)
    rw [made] at also
    cases also
    exact isLong

/-- Loads of one host and limits of another one, the later instant first. -/
def hostGaps : Frame :=
  let early : Instant := Instant.epoch
  let late : Instant := (Instant.ofParts? 60 0).getD Instant.epoch
  { name := "hosts"
    fields :=
      [⟨"time", Labels.empty, none, ⟨⟨.time, false⟩, ⟨[Cell.of late, Cell.of early]⟩⟩⟩,
        ⟨"load", Labels.ofPairs [("host", "a")], none,
          ⟨⟨.int8, false⟩, ⟨[Cell.of (1 : Int8), Cell.of (2 : Int8)]⟩⟩⟩,
        ⟨"limit", Labels.ofPairs [("host", "b"), ("zone", "north")], none,
          ⟨⟨.bool, false⟩, ⟨[Cell.of true, Cell.of false]⟩⟩⟩] }

/-- Every host has rows for both instants, with nulls where it has no field. -/
example : (hostGaps.gather.map fun long => long.fields.tail.map fun field =>
      (field.name, field.column.values)) =
    .ok [("load", [.of .int8 (2 : Int8), .null, .of .int8 (1 : Int8), .null]),
      ("limit", [.null, .of .bool false, .null, .of .bool true]),
      ("host", [.of .string "a", .of .string "b", .of .string "a", .of .string "b"]),
      ("zone", [.of .string "", .of .string "north", .of .string "", .of .string "north"])] := by
  cbv

end Frame

end Columnar
