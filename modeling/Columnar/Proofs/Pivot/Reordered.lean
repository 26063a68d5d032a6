import Columnar.Proofs.Pivot.Arranged
import Columnar.Proofs.Pivot.RoundTrip
import Columnar.Proofs.Pivot.WideAgain

/-! Long frames with their rows in another order. Instants are put in order and rows are found by
what they observe, so that the wide frame has the same instants and the same columns, filled cells
included; only the blocks of columns, one for every combination of factor texts, follow the order of
the rows in which they are first met. -/
namespace Columnar

/-- A field with its cells at the given rows, in the order of the rows. -/
def Field.inOrder (field : Field) (order : List Nat) : Field :=
  field.withColumn (Frame.selectCells field.column order)

/-- A frame with the given rows, in their order. -/
def Frame.inOrder (frame : Frame) (order : List Nat) : Frame :=
  { frame with fields := frame.fields.map (·.inOrder order) }

namespace Frame

/-- Two wide frames of one long frame: the same but for the order of the blocks of columns. Every
combination of factor texts has one block, with a column for each observed field. -/
structure SameBlocks (long : Frame) (fill : Option Fill) (slots : List Instant) (wide : Frame)
    (combinations : List (List String)) (other : Frame) (others : List (List String)) : Prop where
  name : other.name = wide.name
  refId : other.refId = wide.refId
  info : other.info = wide.info
  warnings : other.warnings = wide.warnings
  moved : others.Perm combinations
  fields : ∃ (time : Field) (block : List String → List Field),
    wide.fields = time :: combinations.flatMap block ∧
    other.fields = time :: others.flatMap block ∧
    ∀ factors ∈ combinations,
      List.Forall₂ (long.SeriesOf fill slots factors) long.valueFields (block factors)

variable {long wide : Frame} {fill : Option Fill} {time : Field} {rows : Nat}
variable {times : List Instant} {series : List Field} {order : List Nat}

section Roles

variable (frame : Frame) (order : List Nat)

private theorem filter_inOrder (property : FieldType → Bool) :
    ((frame.inOrder order).fields.filter fun field => property field.type) =
      (frame.fields.filter fun field => property field.type).map (·.inOrder order) := by
  rw [inOrder, List.filter_map]
  rfl

theorem timeFields_inOrder :
    (frame.inOrder order).timeFields = frame.timeFields.map (·.inOrder order) :=
  frame.filter_inOrder order (·.kind == .time)

theorem factorFields_inOrder :
    (frame.inOrder order).factorFields = frame.factorFields.map (·.inOrder order) :=
  frame.filter_inOrder order (·.kind == .string)

theorem valueFields_inOrder :
    (frame.inOrder order).valueFields = frame.valueFields.map (·.inOrder order) :=
  frame.filter_inOrder order (·.kind.isObserved)

theorem factorNames_inOrder :
    (frame.inOrder order).factorFields.map Field.name = frame.factorFields.map Field.name := by
  rw [factorFields_inOrder, List.map_map]
  rfl

end Roles

theorem IsSeries.inOrder (series : long.IsSeries time) (order : List Nat) :
    (long.inOrder order).IsSeries (time.inOrder order) where
  kinds field member := by
    obtain ⟨source, listed, rfl⟩ := List.mem_map.1 member
    exact series.kinds source listed
  time := by rw [timeFields_inOrder, series.time, List.map_singleton]
  values := by
    rw [valueFields_inOrder]
    exact fun none => series.values (List.map_eq_nil_iff.1 none)

section Rows

variable (counted : long.rowCount = .ok rows) (permuted : order.Perm (List.range rows))

include counted permuted

private theorem inside_order {field : Field} (member : field ∈ long.fields) :
    ∀ row ∈ order, row < field.column.size := by
  intro row listed
  rw [(rowCount_eq_ok_iff.1 counted).2 field member]
  exact List.mem_range.1 (permuted.mem_iff.1 listed)

theorem get?_inOrder {field : Field} (member : field ∈ long.fields) (slot : Nat) :
    (field.inOrder order).column.get? slot = order[slot]?.bind field.column.get? :=
  get?_selectCells (inside_order counted permuted member) slot

theorem rowCount_inOrder : (long.inOrder order).rowCount = .ok rows := by
  obtain ⟨some, -⟩ := rowCount_eq_ok_iff.1 counted
  refine rowCount_eq_ok_iff.2 ⟨fun none => some (List.map_eq_nil_iff.1 none), ?_⟩
  intro field member
  obtain ⟨source, listed, rfl⟩ := List.mem_map.1 member
  refine (size_selectCells (inside_order counted permuted listed)).trans ?_
  rw [permuted.length_eq, List.length_range]

theorem factorsAt_inOrder {slot row : Nat} (here : order[slot]? = some row) :
    (long.inOrder order).factorsAt slot = long.factorsAt row := by
  rw [factorsAt, factorFields_inOrder, List.map_map, factorsAt]
  apply List.map_congr_left
  intro field isFactor
  rw [Function.comp_apply, Column.textAt, Column.textAt,
    get?_inOrder counted permuted (List.mem_filter.1 isFactor).1, here, Option.bind_some]

omit counted permuted in
theorem times_inOrder (read : time.times = .ok times) (order : List Nat) :
    (time.inOrder order).times = .ok (pick times order) := by
  have values : (time.inOrder order).column.values = pick time.column.values order :=
    values_selectCells ..
  rw [Field.times_eq_ok_iff, values, Field.times_eq_ok_iff.1 read, pick_map]

variable (isSeries : long.IsSeries time) (read : time.times = .ok times)

include isSeries read

omit permuted in
theorem length_observations : (long.observations times).length = rows := by
  rw [observations_eq counted isSeries read, List.length_zipWith, List.length_map,
    List.length_range, length_times counted isSeries read, Nat.min_self]

/-- The observations are those of the rows, in the new order. -/
theorem observations_inOrder :
    (long.inOrder order).observations (pick times order) = pick (long.observations times) order := by
  have length := length_observations counted isSeries read
  apply List.ext_getElem?
  intro slot
  rw [observations_getElem? (rowCount_inOrder counted permuted) (isSeries.inOrder order)
      (times_inOrder read order), observationAt?,
    timeAt?_eq (isSeries.inOrder order) (times_inOrder read order),
    getElem?_pick (lt_of_perm_range (length_times counted isSeries read ▸ permuted)),
    getElem?_pick (lt_of_perm_range (length ▸ permuted))]
  cases here : order[slot]? with
  | none => rfl
  | some row =>
    rw [Option.bind_some, Option.bind_some, observations_getElem? counted isSeries read,
      observationAt?, timeAt?_eq isSeries read, factorsAt_inOrder counted permuted here]

end Rows

/-- The cells of a series are found by what the rows observe, wherever the rows stand. -/
theorem ofSeries_inOrder {source : Field} {observations : List Observation}
    (distinct : observations.Nodup) (size : source.column.size = observations.length)
    (permuted : order.Perm (List.range observations.length)) (slots : List Instant)
    (names factors : List String) :
    (source.inOrder order).ofSeries fill slots (pick observations order) names factors =
      source.ofSeries fill slots observations names factors := by
  have keys : ((observations.zip source.column.cells.toList).map Prod.fst).Nodup := by
    rwa [List.map_fst_zip (Nat.le_of_eq size.symm)]
  have zipped : ((pick observations order).zip (pick source.column.cells.toList order)).Perm
      (observations.zip source.column.cells.toList) := by
    rw [List.zip, pick_zipWith _ size (lt_of_perm_range permuted)]
    apply pick_perm
    rwa [List.length_zipWith, show source.column.cells.toList.length = _ from size, Nat.min_self]
  have cells : (source.inOrder order).column.cells.ofSeries slots (pick observations order) factors =
      source.column.cells.ofSeries slots observations factors :=
    List.map_congr_left fun slot _ => lookup_eq_of_perm keys zipped
  exact congrArg (fun cells : List (Option (Cell source.type)) => do
    let cells ← Fill.complete fill (cells.map (Option.map (Cell.forFill fill)))
    return ({ name := source.name
              labels := source.labels.withFactors names factors
              config := source.config
              column := ⟨Fill.columnType fill source.type, cells⟩ } : Field)) cells

/-- The columns of a combination of factor texts, as far as they can be made. -/
def block (long : Frame) (fill : Option Fill) (times : List Instant) (factors : List String) :
    List Field :=
  long.valueFields.filterMap fun source => (source.ofSeries fill (Instant.distinct times)
    (long.observations times) (long.factorFields.map Field.name) factors).toOption

namespace Pivots

variable (pivots : long.Pivots fill time rows times series)

include pivots

/-- A wide frame consists of one block after the other. -/
theorem series_eq : series = (combinations long times).flatMap (long.block fill times) := by
  rw [eq_filterMap_of_forall₂ pivots.series]
  simp only [SProd.sprod, List.product, List.filterMap_flatMap, List.filterMap_map,
    Function.comp_def]
  rfl

/-- A block has a column for each observed field. -/
theorem block_seriesOf {factors : List String} (member : factors ∈ combinations long times) :
    List.Forall₂ (long.SeriesOf fill (Instant.distinct times) factors) long.valueFields
      (long.block fill times factors) := by
  have made : ∀ source ∈ long.valueFields, ∃ field, source.ofSeries fill (Instant.distinct times)
      (long.observations times) (long.factorFields.map Field.name) factors = .ok field := by
    intro source isValue
    obtain ⟨field, -, made⟩ := exists_right_of_forall₂ pivots.series
      (List.mem_product.2 ⟨member, isValue⟩)
    exact ⟨field, made⟩
  obtain ⟨fields, all⟩ := exists_forall₂ made
  rw [block, ← eq_filterMap_of_forall₂ all]
  exact forall₂_imp_of_mem all fun source isValue field made => pivots.seriesOf made isValue

variable (permuted : order.Perm (List.range rows))

include permuted

theorem observations_pick : (long.inOrder order).observations (pick times order) =
    pick (long.observations times) order :=
  observations_inOrder pivots.counted permuted pivots.isSeries pivots.read

theorem observations_perm :
    ((long.inOrder order).observations (pick times order)).Perm (long.observations times) := by
  rw [pivots.observations_pick permuted]
  apply pick_perm
  rwa [length_observations pivots.counted pivots.isSeries pivots.read]

theorem distinct_pick : Instant.distinct (pick times order) = Instant.distinct times := by
  apply Instant.distinct_eq (Instant.distinct_ascending times)
  intro instant
  rw [Instant.mem_distinct]
  exact (pick_perm (length_times pivots.counted pivots.isSeries pivots.read ▸ permuted)).mem_iff.symm

/-- The blocks follow the rows, the combinations of texts are the same. -/
theorem combinations_perm :
    (combinations (long.inOrder order) (pick times order)).Perm (combinations long times) := by
  apply (List.perm_ext_iff_of_nodup combinations_nodup combinations_nodup).2
  intro factors
  simp only [combinations, Observation.series, List.mem_eraseDups]
  exact ((pivots.observations_perm permuted).map _).mem_iff

/-- The column of a series does not depend on the order of the rows. -/
theorem ofSeries_pick {source : Field} (isValue : source ∈ long.valueFields)
    (factors : List String) :
    (source.inOrder order).ofSeries fill (Instant.distinct (pick times order))
        ((long.inOrder order).observations (pick times order))
        ((long.inOrder order).factorFields.map Field.name) factors =
      source.ofSeries fill (Instant.distinct times) (long.observations times)
        (long.factorFields.map Field.name) factors := by
  have length := length_observations pivots.counted pivots.isSeries pivots.read
  have size := (rowCount_eq_ok_iff.1 pivots.counted).2 source (List.mem_filter.1 isValue).1
  rw [pivots.distinct_pick permuted, pivots.observations_pick permuted, factorNames_inOrder]
  exact ofSeries_inOrder pivots.distinct (size.trans length.symm) (length.symm ▸ permuted) _ _ _

theorem block_inOrder (factors : List String) :
    (long.inOrder order).block fill (pick times order) factors = long.block fill times factors := by
  rw [block, valueFields_inOrder, List.filterMap_map, block]
  apply List.filterMap_congr
  intro source isValue
  exact congrArg Except.toOption (pivots.ofSeries_pick permuted isValue factors)

/-- A frame with its rows in another order is made wide if the frame itself is. -/
theorem inOrder : ∃ moved, (long.inOrder order).Pivots fill (time.inOrder order) rows
    (pick times order) moved := by
  have made : ∀ origin ∈ combinations (long.inOrder order) (pick times order) ×ˢ
      (long.inOrder order).valueFields, ∃ field, origin.2.ofSeries fill
        (Instant.distinct (pick times order)) ((long.inOrder order).observations (pick times order))
        ((long.inOrder order).factorFields.map Field.name) origin.1 = .ok field := by
    rintro ⟨factors, moved⟩ member
    obtain ⟨inMoved, isMoved⟩ := List.mem_product.1 member
    rw [valueFields_inOrder] at isMoved
    obtain ⟨source, isValue, rfl⟩ := List.mem_map.1 isMoved
    have inCombinations := (pivots.combinations_perm permuted).mem_iff.1 inMoved
    obtain ⟨field, -, made⟩ := exists_right_of_forall₂ pivots.series
      (List.mem_product.2 ⟨inCombinations, isValue⟩)
    exact ⟨field, (pivots.ofSeries_pick permuted isValue factors).trans made⟩
  obtain ⟨moved, series⟩ := exists_forall₂ made
  refine ⟨moved, pivots.isSeries.inOrder order, ?_, rowCount_inOrder pivots.counted permuted,
    pivots.hasRows, times_inOrder pivots.read order, ?_, series⟩
  · rw [factorFields_inOrder]
    exact fun none => pivots.hasFactors (List.map_eq_nil_iff.1 none)
  · exact (pivots.observations_perm permuted).nodup_iff.2 pivots.distinct

end Pivots

/-- Rows in another order can be put back. -/
theorem exists_inOrder_back (counted : long.rowCount = .ok rows)
    (permuted : order.Perm (List.range rows)) :
    ∃ back : List Nat, back.Perm (List.range rows) ∧ (long.inOrder order).inOrder back = long := by
  obtain ⟨back, backPermuted, same⟩ := exists_pick_back permuted
  refine ⟨back, backPermuted, ?_⟩
  have fields : ∀ field ∈ long.fields, (field.inOrder order).inOrder back = field := by
    intro field member
    have cells := same field.column.cells.toList ((rowCount_eq_ok_iff.1 counted).2 field member)
    exact congrArg (fun cells => field.withColumn ⟨field.type, ⟨cells⟩⟩) cells
  have all : (long.fields.map (·.inOrder order)).map (·.inOrder back) = long.fields := by
    rw [List.map_map]
    exact (List.map_congr_left fields).trans (List.map_id _)
  exact congrArg (fun fields => { long with fields }) all

theorem exists_longToWide_inOrder (counted : long.rowCount = .ok rows)
    (permuted : order.Perm (List.range rows)) (made : long.longToWide fill = .ok wide) :
    ∃ other, (long.inOrder order).longToWide fill = .ok other := by
  obtain ⟨time, found, times, series, pivots, -⟩ := pivots_of_longToWide made
  obtain rfl : found = rows := Except.ok.inj (pivots.counted.symm.trans counted)
  obtain ⟨moved, movedPivots⟩ := pivots.inOrder permuted
  exact ⟨_, longToWide_of_pivots movedPivots⟩

/-- Whether a long frame can be made wide does not depend on the order of its rows, and neither does
the wide frame, but for the order of its blocks: they stand in the order of the rows in which their
factor texts are first met. -/
theorem longToWide_inOrder (counted : long.rowCount = .ok rows)
    (permuted : order.Perm (List.range rows)) (fill : Option Fill) :
    ((∃ wide, long.longToWide fill = .ok wide) ↔
      ∃ other, (long.inOrder order).longToWide fill = .ok other) ∧
    ∀ wide other, long.longToWide fill = .ok wide →
      (long.inOrder order).longToWide fill = .ok other →
      ∃ slots combinations others, long.DistinctTimes slots ∧
        long.DistinctFactors rows combinations ∧
        (long.inOrder order).DistinctFactors rows others ∧
        long.SameBlocks fill slots wide combinations other others := by
  refine ⟨⟨?_, ?_⟩, ?_⟩
  · rintro ⟨wide, made⟩
    exact exists_longToWide_inOrder counted permuted made
  · rintro ⟨other, made⟩
    obtain ⟨back, backPermuted, same⟩ := exists_inOrder_back counted permuted
    have again := exists_longToWide_inOrder (rowCount_inOrder counted permuted) backPermuted made
    rwa [same] at again
  · intro wide other made movedMade
    obtain ⟨time, found, times, series, pivots, rfl⟩ := pivots_of_longToWide made
    obtain rfl : found = rows := Except.ok.inj (pivots.counted.symm.trans counted)
    obtain ⟨moved, movedPivots⟩ := pivots.inOrder permuted
    rw [longToWide_of_pivots movedPivots] at movedMade
    cases movedMade
    refine ⟨Instant.distinct times, _, _, pivots.distinctTimes, pivots.distinctFactors,
      movedPivots.distinctFactors, rfl, rfl, rfl, rfl, pivots.combinations_perm permuted,
      time.ofSlots (Instant.distinct times), long.block fill times, ?_, ?_, ?_⟩
    · exact congrArg _ pivots.series_eq
    · have blocks : (long.inOrder order).block fill (pick times order) = long.block fill times :=
        funext (pivots.block_inOrder permuted)
      rw [pivots.distinct_pick permuted, movedPivots.series_eq, blocks]
      rfl
    · exact fun factors => pivots.block_seriesOf

/-- With the first reading of the hosts moved to the end, the columns of the other host come first. -/
theorem longToWide_inOrder_hostReadings :
    hostReadings.rowCount = .ok 3 ∧ [1, 2, 0].Perm (List.range 3) ∧
      ∃ wide other, hostReadings.longToWide (some .previous) = .ok wide ∧
        (hostReadings.inOrder [1, 2, 0]).longToWide (some .previous) = .ok other ∧
        (wide.fields.map (·.labels.get? "host") = [none, some "b", some "a"] ∧
          other.fields.map (·.labels.get? "host") = [none, some "a", some "b"]) ∧
        ∃ slots combinations others, hostReadings.DistinctTimes slots ∧
          hostReadings.DistinctFactors 3 combinations ∧
          (hostReadings.inOrder [1, 2, 0]).DistinctFactors 3 others ∧
          hostReadings.SameBlocks (some .previous) slots wide combinations other others := by
  have counted : hostReadings.rowCount = .ok 3 := rfl
  have permuted : [1, 2, 0].Perm (List.range 3) := by decide
  obtain ⟨-, same⟩ := longToWide_inOrder counted permuted (some .previous)
  exact ⟨counted, permuted, _, _, rfl, rfl, by decide +kernel, same _ _ rfl rfl⟩

end Frame

end Columnar
