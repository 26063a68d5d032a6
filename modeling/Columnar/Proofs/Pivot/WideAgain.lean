import Columnar.Proofs.Json.Readers
import Columnar.Proofs.Pivot.Arranged
import Columnar.Proofs.Pivot.Wide

/-! From columns to rows and back. When all label sets have the same keys, their texts become
factors that tell the sets apart, so that the rows made from a wide frame are put together to its
fields again: every instant and every field comes back once, with the cells it had, and only the
order of rows and fields may change. -/
namespace Columnar

namespace Labels

/-- The texts under keys; a missing one is empty. -/
def textsOf (keys : List String) (labels : Labels) : List String :=
  keys.map fun key => (labels.get? key).getD ""

/-- Labels are their keys and texts. -/
theorem withFactors_textsOf {keys : List String} {labels : Labels} (same : labels.keys = keys) :
    Labels.empty.withFactors keys (labels.textsOf keys) = labels := by
  have texts : labels.textsOf keys = labels.pairs.map Prod.snd := by
    rw [← same, textsOf, Labels.keys, List.map_map]
    apply List.map_congr_left
    rintro ⟨key, text⟩ member
    have found : labels.pairs.lookup key = some text :=
      (lookup_eq_some_iff_mem labels.keys_nodup).2 member
    rw [Function.comp_apply, Labels.get?, found, Option.getD_some]
  have pairs : keys.zip (labels.textsOf keys) = labels.pairs := by
    rw [texts, ← same]
    exact (List.zip_of_prod rfl rfl).symm
  rw [withFactors, pairs]
  exact labels.ofPairs_pairs

end Labels

namespace Frame

section Forward

variable {long : Frame} {fill : Option Fill} {time : Field} {rows : Nat} {times : List Instant}
  {series : List Field}

/-- A frame whose parts are found is made wide out of them. -/
theorem longToWide_of_pivots (pivots : long.Pivots fill time rows times series) :
    long.longToWide fill = .ok
      { name := long.name
        refId := long.refId
        fields := time.ofSlots (Instant.distinct times) :: series
        info := some (long.infoWithShape .timeSeriesWide) } := by
  obtain ⟨kind, timeField, factors, values⟩ := seriesRead_of_isSeries pivots.isSeries
  rw [if_neg pivots.hasFactors] at kind
  have distinct : Observation.firstRepeated? [] 0 (long.observations times) = none :=
    Observation.firstRepeated?_eq_none.2 ⟨pivots.distinct, fun _ _ => List.not_mem_nil⟩
  have made := mapM_eq_ok_iff.2 pivots.series
  unfold longToWide
  dsimp only
  rw [if_neg (by simp [kind]), timeField, factors, values, pivots.counted]
  simp only [bind, Except.bind, if_neg pivots.hasRows, pivots.read]
  rw [observations] at distinct made
  rw [distinct]
  dsimp only
  have order : (Observation.series (Observation.ofColumns times
        (long.factorFields.map Field.column)) ×ˢ long.valueFields) =
      (Observation.series (Observation.ofColumns times (long.factorFields.map Field.column))).flatMap
        fun factors => long.valueFields.map fun source => (factors, source) := rfl
  rw [← order, made]
  rfl

end Forward

namespace WideGrid

variable {wide : Frame} {time : Field} {slots : List Instant} {series columns : List Field}
variable {labelSets : List Labels} {names keys : List String} {type : String → FieldType}
variable (grid : wide.WideGrid time slots series labelSets names type)
variable (long : List.Forall₂ (LongColumn series slots type) names columns)
variable (sameKeys : ∀ labels ∈ labelSets, labels.keys = keys)

/-- The instants of the rows of the long frame. -/
def longTimes (slots : List Instant) (labelSets : List Labels) : List Instant :=
  slots.flatMap fun slot => labelSets.map fun _ => slot

theorem times_longTime (time : Field) :
    (longTime time slots labelSets).times = .ok (longTimes slots labelSets) := by
  rw [Field.times_eq_ok_iff, values_longTime, longTimes, List.map_flatMap]
  simp only [List.map_map, Function.comp_def]

include grid

theorem length_columns (long : List.Forall₂ (LongColumn series slots type) names columns) :
    columns ≠ [] := by
  rintro rfl
  cases long
  exact grid.whole.someName rfl

theorem mem_labelSets_of_mem {field : Field} (member : field ∈ series) :
    field.labels ∈ labelSets ∧ field.name ∈ names := by
  have placed : field.place ∈ labelSets ×ˢ names := by
    rw [← grid.whole.places]
    exact List.mem_map_of_mem member
  exact List.mem_product.1 placed

include sameKeys

theorem keys_eq : (SeriesGrid.ofFields series).keys = keys :=
  keys_ofFields grid.series_ne_nil fun _ member => sameKeys _ (grid.mem_labelSets_of_mem member).1

include long

/-- The factors of a row of the long frame are the texts of its label set. -/
theorem longFrame_factorsAt {slot set : Nat} (inside : slot < slots.length)
    (inSets : set < labelSets.length) :
    (longFrame wide time slots series labelSets columns).factorsAt (slot * labelSets.length + set) =
      labelSets[set].textsOf keys := by
  rw [factorsAt, (grid.longFrame_inRoles long).factorFields_eq, grid.keys_eq sameKeys, List.map_map]
  apply List.map_congr_left
  intro key _
  rw [Function.comp_apply, Column.textAt, Column.get?_eq_values, grid.values_textColumn,
    getElem?_flatMap_map (List.range slots.length) labelSets _ slot inSets,
    List.getElem?_range inside]
  rfl

/-- The observations of the long frame: every instant with the texts of every label set. -/
theorem observations_longFrame :
    (longFrame wide time slots series labelSets columns).observations (longTimes slots labelSets) =
      (slots ×ˢ labelSets).map fun pair => ⟨pair.1, pair.2.textsOf keys⟩ := by
  have roles := grid.longFrame_inRoles long
  have isSeries := roles.isSeries (grid.length_columns long)
  have counted := grid.longFrame_rowCount long
  have product : (slots ×ˢ labelSets).map (fun pair => (⟨pair.1, pair.2.textsOf keys⟩ : Observation)) =
      slots.flatMap fun slot => labelSets.map fun labels => ⟨slot, labels.textsOf keys⟩ := by
    simp [SProd.sprod, List.product, List.map_flatMap, Function.comp_def]
  rw [product]
  apply List.ext_getElem?
  intro row
  rw [observations_getElem? counted isSeries (times_longTime time)]
  by_cases within : row < slots.length * labelSets.length
  · obtain ⟨slot, set, inside, inSets, rfl⟩ := exists_pair_of_lt within
    rw [observationAt?, grid.longFrame_timeAt? long inSets,
      grid.longFrame_factorsAt long sameKeys inside inSets,
      getElem?_flatMap_map slots labelSets _ slot inSets]
  · have beyond : (slots.flatMap fun slot => labelSets.map fun labels =>
        (⟨slot, labels.textsOf keys⟩ : Observation)).length ≤ row := by
      rw [length_flatMap_map]
      omega
    rw [List.getElem?_eq_none beyond, observationAt?, Option.map_eq_none_iff,
      timeAt?_eq isSeries (times_longTime time), List.getElem?_eq_none_iff]
    rw [longTimes, length_flatMap_map]
    omega

omit grid long in
/-- Label sets of the same keys are told apart by their texts. -/
theorem textsOf_injective {first second : Labels} (inFirst : first ∈ labelSets)
    (inSecond : second ∈ labelSets) (same : first.textsOf keys = second.textsOf keys) :
    first = second := by
  rw [← Labels.withFactors_textsOf (sameKeys first inFirst), same,
    Labels.withFactors_textsOf (sameKeys second inSecond)]

omit long in
theorem observations_nodup : ((slots ×ˢ labelSets).map fun pair =>
    (⟨pair.1, pair.2.textsOf keys⟩ : Observation)).Nodup := by
  have slotsOnce : slots.Nodup := grid.ascending.imp Instant.ne_of_before
  apply List.Nodup.map_on
  · rintro ⟨slot, labels⟩ inFirst ⟨other, others⟩ inSecond same
    obtain ⟨rfl, texts⟩ := Observation.mk.inj same
    have labelled := textsOf_injective sameKeys (List.mem_product.1 inFirst).2
      (List.mem_product.1 inSecond).2 texts
    rw [labelled]
  · exact slotsOnce.product grid.whole.labelSetsOnce

omit long in
/-- The combinations of texts come in the order of the label sets. -/
theorem series_observations (some : slots ≠ []) :
    Observation.series ((slots ×ˢ labelSets).map fun pair => ⟨pair.1, pair.2.textsOf keys⟩) =
      labelSets.map (Labels.textsOf keys) := by
  have once : (labelSets.map (Labels.textsOf keys)).Nodup :=
    List.Nodup.map_on (fun _ inFirst _ inSecond => textsOf_injective sameKeys inFirst inSecond)
      grid.whole.labelSetsOnce
  have texts : ((slots ×ˢ labelSets).map fun pair =>
      (⟨pair.1, pair.2.textsOf keys⟩ : Observation)).map Observation.factors =
        (slots ×ˢ labelSets.map (Labels.textsOf keys)).map Prod.snd := by
    simp [SProd.sprod, List.product, List.map_flatMap, Function.comp_def]
  rw [Observation.series, texts]
  exact eraseDups_product_snd once some

/-- The long frame of a grid has the parts that a wide frame is made from. -/
theorem pivots_longFrame (some : slots ≠ []) (someKey : keys ≠ []) :
    ∃ again, (longFrame wide time slots series labelSets columns).Pivots none
      (longTime time slots labelSets) (slots.length * labelSets.length)
      (longTimes slots labelSets) again := by
  have roles := grid.longFrame_inRoles long
  have observed := grid.observations_longFrame long sameKeys
  have parts : ∃ again, List.Forall₂
      (fun (origin : List String × Field) field => origin.2.ofSeries none
        (Instant.distinct (longTimes slots labelSets))
        ((longFrame wide time slots series labelSets columns).observations
          (longTimes slots labelSets))
        ((longFrame wide time slots series labelSets columns).factorFields.map Field.name) origin.1 =
          .ok field)
      (Observation.series ((longFrame wide time slots series labelSets columns).observations
        (longTimes slots labelSets)) ×ˢ
          (longFrame wide time slots series labelSets columns).valueFields) again :=
    exists_forall₂ fun origin _ => ⟨_, rfl⟩
  obtain ⟨again, made⟩ := parts
  refine ⟨again, roles.isSeries (grid.length_columns long), ?_, grid.longFrame_rowCount long, ?_,
    times_longTime time, ?_, made⟩
  · rw [roles.factorFields_eq, grid.keys_eq sameKeys]
    exact fun none => someKey (List.map_eq_nil_iff.1 none)
  · have someSlot := List.length_pos_iff.2 some
    have someSet := List.length_pos_iff.2 grid.whole.someLabels
    exact Nat.ne_of_gt (Nat.mul_pos someSlot someSet)
  · rw [observed]
    exact grid.observations_nodup sameKeys

omit long sameKeys in
theorem distinct_longTimes : Instant.distinct (longTimes slots labelSets) = slots := by
  obtain ⟨labels, others, some⟩ := List.exists_cons_of_ne_nil grid.whole.someLabels
  apply Instant.distinct_eq grid.ascending
  intro instant
  rw [longTimes, List.mem_flatMap]
  constructor
  · intro member
    exact ⟨instant, member, by simp [some]⟩
  · rintro ⟨slot, member, here⟩
    obtain ⟨-, -, rfl⟩ := List.mem_map.1 here
    exact member

theorem factorNames_longFrame :
    (longFrame wide time slots series labelSets columns).factorFields.map Field.name = keys := by
  rw [(grid.longFrame_inRoles long).factorFields_eq, grid.keys_eq sameKeys, List.map_map]
  exact List.map_id' keys

/-- What each field that comes back is made from: a label set and a column of the long frame. -/
theorem origins_again (some : slots ≠ []) {again : List Field}
    (pivots : (longFrame wide time slots series labelSets columns).Pivots none
      (longTime time slots labelSets) (slots.length * labelSets.length)
      (longTimes slots labelSets) again) :
    List.Forall₂ (fun (origin : Labels × Field) field =>
        field.place = (origin.1, origin.2.name) ∧
          (longFrame wide time slots series labelSets columns).SeriesOf none slots
            (origin.1.textsOf keys) origin.2 field)
      (labelSets ×ˢ columns) again := by
  have roles := grid.longFrame_inRoles long
  have observed := grid.observations_longFrame long sameKeys
  have made := pivots.series
  have factors : Observation.series ((longFrame wide time slots series labelSets columns).observations
      (longTimes slots labelSets)) = labelSets.map (Labels.textsOf keys) := by
    rw [observed, grid.series_observations sameKeys some]
  have origins : (labelSets.map (Labels.textsOf keys)) ×ˢ columns =
      (labelSets ×ˢ columns).map fun origin => (origin.1.textsOf keys, origin.2) := by
    simp [SProd.sprod, List.product, List.map_flatMap, List.flatMap_map, Function.comp_def]
  rw [factors, roles.valueFields_eq, origins, List.forall₂_map_left_iff] at made
  apply forall₂_imp_of_mem made
  rintro ⟨labels, column⟩ member field here
  obtain ⟨inSets, inColumns⟩ := List.mem_product.1 member
  obtain ⟨name, inNames, isColumn⟩ := exists_left_of_forall₂ long inColumns
  have isValue : column ∈ (longFrame wide time slots series labelSets columns).valueFields := by
    rwa [roles.valueFields_eq]
  have isSeries := pivots.seriesOf here isValue
  rw [grid.distinct_longTimes] at isSeries
  obtain ⟨named, labelled, -⟩ := Field.ofSeries_parts here
  refine ⟨Prod.ext ?_ named, isSeries⟩
  rw [isColumn.unlabelled, grid.factorNames_longFrame long sameKeys,
    Labels.withFactors_textsOf (sameKeys labels inSets)] at labelled
  exact labelled

/-- The value fields of a grid that was made long and wide again: those of the grid. -/
structure SeriesAgain (series : List Field) (slots : List Instant) (type : String → FieldType)
    (field : Field) : Prop where
  typed : field.type = type field.name
  size : field.column.size = slots.length
  cells : ∀ slot < slots.length, field.column.get? slot =
    ((SeriesGrid.ofFields series).field? field.name field.labels).bind (·.column.get? slot)

/-- A long frame of a grid is made wide to the grid. -/
theorem longToWide_longFrame (some : slots ≠ []) (someKey : keys ≠ []) :
    ∃ again, (longFrame wide time slots series labelSets columns).longToWide none = .ok
        { name := wide.name
          refId := wide.refId
          fields := (longTime time slots labelSets).ofSlots slots :: again
          info := .some ((longFrame wide time slots series labelSets columns).infoWithShape
            .timeSeriesWide) } ∧
      again.map Field.place = labelSets ×ˢ names ∧
      ∀ field ∈ again, SeriesAgain series slots type field := by
  obtain ⟨again, pivots⟩ := grid.pivots_longFrame long sameKeys some someKey
  have made := longToWide_of_pivots pivots
  rw [grid.distinct_longTimes] at made
  have origins := grid.origins_again long sameKeys some pivots
  have roles := grid.longFrame_inRoles long
  have named : columns.map Field.name = names := by
    rw [map_eq_of_forall₂ (f := id) (long.imp fun name column here => here.named), List.map_id]
  refine ⟨again, made, ?_, ?_⟩
  · rw [map_eq_of_forall₂ (origins.imp fun origin field here => here.1), ← named]
    simp [SProd.sprod, List.product, List.map_flatMap, Function.comp_def]
  · intro field member
    obtain ⟨⟨labels, column⟩, inOrigins, place, isSeries⟩ := exists_left_of_forall₂ origins member
    obtain ⟨inSets, inColumns⟩ := List.mem_product.1 inOrigins
    obtain ⟨name, inNames, isColumn⟩ := exists_left_of_forall₂ long inColumns
    obtain ⟨labelled, fieldName⟩ := Prod.mk.inj place
    rw [isColumn.named] at fieldName
    obtain ⟨set, bound, atSet⟩ := List.mem_iff_getElem.1 inSets
    refine ⟨?_, isSeries.size, fun slot inside => ?_⟩
    · have typed := isSeries.type
      rw [if_neg nofun] at typed
      rw [typed, fieldName, isColumn.typed]
    · have atRow : (longFrame wide time slots series labelSets columns).timeAt?
          (slot * labelSets.length + set) = .some slots[slot] := by
        rw [grid.longFrame_timeAt? long bound, List.getElem?_eq_getElem inside]
      have texts := grid.longFrame_factorsAt long sameKeys inside bound
      rw [atSet] at texts
      have value := grid.longFrame_valueAt? long inNames inside bound
      have once : ((longFrame wide time slots series labelSets columns).valueFields.map
          Field.name).Nodup := by
        rw [roles.valueFields_eq, named]
        exact grid.whole.namesOnce
      have isValue : column ∈ (longFrame wide time slots series labelSets columns).valueFields := by
        rwa [roles.valueFields_eq]
      rw [← isColumn.named, valueAt?, find?_of_nodup_map once isValue, Option.bind_some,
        isColumn.named, atSet] at value
      rw [isSeries.present _ slot _ atRow texts (List.getElem?_eq_getElem inside), value, fieldName,
        labelled]

end WideGrid

/-- The wide frame that comes back from the long frame of another one: its rows in the order of
time, and its fields by label sets and names, each in the order in which they are first met. -/
structure WideAgain (wide : Frame) (slots : List Instant) (series : List Field) (back : Frame) :
    Prop where
  name : back.name = wide.name
  refId : back.refId = wide.refId
  times : wide.DistinctTimes slots
  fields : ∃ source time, wide.timeFields = [source] ∧ back.fields = time :: series ∧
    time.name = source.name ∧ time.labels = source.labels ∧ time.config = source.config ∧
    time.type = ⟨.time, false⟩ ∧ time.column.values = slots.map (Value.of .time)
  order : series.map Field.place =
    (wide.valueFields.map Field.labels).eraseDups ×ˢ (wide.valueFields.map Field.name).eraseDups
  once : (series.map Field.place).Nodup
  places : (series.map Field.place).Perm (wide.valueFields.map Field.place)
  cells : ∀ field ∈ series, ∀ source ∈ wide.valueFields, field.place = source.place →
    field.type = source.type ∧ field.column.size = slots.length ∧
      ∀ row slot time, wide.timeAt? row = some time → slots[slot]? = some time →
        field.column.get? slot = source.column.get? row

/-- A wide frame that is a grid up to order comes back when it is made long and wide again: every
instant once and in order, and every field once, with its name, labels, type and cells. -/
theorem longToWide_wideToLong {wide long : Frame} (unpivoted : wide.wideToLong = .ok long)
    (regular : wide.Regular) :
    ∃ slots series back, long.longToWide none = .ok back ∧ wide.WideAgain slots series back := by
  obtain ⟨time, rows, times, parts⟩ := unpivots_of_wideToLong unpivoted
  obtain ⟨keys, someKey, sameKeys⟩ := regular.keys
  obtain ⟨series, arranged⟩ := regular.exists_arranged (orderOf times)
  have grid := parts.wideGrid regular arranged
  obtain ⟨columns, isLong, made⟩ := parts.wideToLong_arranged regular arranged
  rw [unpivoted] at made
  cases made
  have allKeys : ∀ labels ∈ wide.labelSets, labels.keys = keys := by
    intro labels inSets
    obtain ⟨field, isValue, rfl⟩ := mem_labelSets.1 inSets
    exact sameKeys field isValue
  have some : slotsOf times ≠ [] := by
    intro none
    have length := parts.length_slotsOf
    rw [none, List.length_nil] at length
    exact regular.someRow (length ▸ parts.counted)
  obtain ⟨again, back, places, cells⟩ := grid.longToWide_longFrame isLong allKeys some someKey
  have once : (again.map Field.place).Nodup := by
    rw [places]
    exact grid.whole.labelSetsOnce.product grid.whole.namesOnce
  refine ⟨slotsOf times, again, _, back, rfl, rfl, parts.distinctTimes regular, ?_, places, once,
    ?_, ?_⟩
  · refine ⟨time, _, parts.isSeries.time, rfl, rfl, rfl, rfl, rfl, ?_⟩
    simp [Field.ofSlots, Field.withColumn, Column.values, Cells.values, Function.comp_def]
  · apply (List.perm_ext_iff_of_nodup once parts.distinct).2
    rintro ⟨labels, name⟩
    rw [places, List.mem_product, List.mem_map]
    constructor
    · rintro ⟨inSets, inNames⟩
      obtain ⟨source, isValue, -, place⟩ := regular.field?_eq_some inSets inNames
      exact ⟨source, isValue, place⟩
    · rintro ⟨source, isValue, place⟩
      obtain ⟨rfl, rfl⟩ := Prod.mk.inj place
      exact ⟨mem_labelSets.2 ⟨source, isValue, rfl⟩, mem_seriesNames.2 ⟨source, isValue, rfl⟩⟩
  · intro field member source isValue place
    obtain ⟨labelled, named⟩ := Prod.mk.inj place
    have isAgain := cells field member
    refine ⟨?_, isAgain.size, fun row slot instant atRow atSlot => ?_⟩
    · rw [isAgain.typed, named]
      exact regular.seriesType_eq isValue
    · have inside := (List.getElem?_eq_some_iff.1 atSlot).1
      rw [isAgain.cells slot inside, named, labelled, parts.field?_arranged regular arranged isValue,
        Option.bind_some]
      exact (get?_selectCells (parts.inside_orderOf isValue) slot).trans
        (by rw [parts.orderOf_getElem? regular atRow atSlot, Option.bind_some])

/-- Loads and limits of two hosts, the later instant first; the fields of the second host stand
between those of the first. -/
def hostSeries : Frame :=
  let early : Instant := Instant.epoch
  let late : Instant := (Instant.ofParts? 60 0).getD Instant.epoch
  let a := Labels.ofPairs [("host", "a")]
  let b := Labels.ofPairs [("host", "b")]
  { name := "hosts"
    fields :=
      [⟨"load", a, none, ⟨⟨.int8, false⟩, ⟨[Cell.of (1 : Int8), Cell.of (2 : Int8)]⟩⟩⟩,
        ⟨"load", b, none, ⟨⟨.int8, false⟩, ⟨[Cell.of (3 : Int8), Cell.of (4 : Int8)]⟩⟩⟩,
        ⟨"time", Labels.empty, none, ⟨⟨.time, false⟩, ⟨[Cell.of late, Cell.of early]⟩⟩⟩,
        ⟨"limit", b, none, ⟨⟨.bool, true⟩, ⟨[Cell.of true, Cell.empty rfl]⟩⟩⟩,
        ⟨"limit", a, none, ⟨⟨.bool, true⟩, ⟨[Cell.empty rfl, Cell.of false]⟩⟩⟩] }

private theorem unpivots_hostSeries : hostSeries.Unpivots hostSeries.fields[2] 2
    [⟨60, 0, by decide, by decide, by decide, by decide⟩,
      ⟨0, 0, by decide, by decide, by decide, by decide⟩] := by
  refine ⟨⟨?_, rfl, List.cons_ne_nil _ _⟩, rfl, rfl, rfl, ?_⟩
  · decide
  · decide +kernel

private theorem regular_hostSeries : hostSeries.Regular := by
  have parts := unpivots_hostSeries
  constructor
  · rw [parts.counted]
    nofun
  · intro first second time atFirst atSecond
    rw [timeAt?_eq parts.isSeries parts.read] at atFirst atSecond
    have inside := (List.getElem?_eq_some_iff.1 atFirst).1
    exact (List.getElem?_inj inside (by decide)).1 (atFirst.trans atSecond.symm)
  · exact ⟨["host"], by decide, by decide +kernel⟩
  · decide +kernel
  · decide +kernel

theorem longToWide_hostSeries :
    ∃ long, hostSeries.wideToLong = .ok long ∧ hostSeries.Regular ∧
      ∃ slots series back, long.longToWide none = .ok back ∧
        hostSeries.WideAgain slots series back := by
  obtain ⟨long, unpivoted⟩ := unpivots_hostSeries.exists_wideToLong regular_hostSeries
  exact ⟨long, unpivoted, regular_hostSeries,
    longToWide_wideToLong unpivoted regular_hostSeries⟩

end Frame

end Columnar
