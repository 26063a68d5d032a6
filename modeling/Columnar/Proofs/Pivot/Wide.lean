import Columnar.Proofs.Cells
import Columnar.Proofs.Labels
import Columnar.Proofs.Pivot.Rows
import Columnar.Proofs.Time.Order
import Mathlib.Data.List.ProdSigma

/-! What a long frame looks like as a wide one. Its instants, each once and in order, become the
rows; its combinations of factor texts, in the order in which they are first met, become the columns
of every observed field. A cell holds what the row of its instant and its combination holds, and
the fill decides only about those that have no row. -/
namespace Columnar

/-- The value put where a series has no row, given the value in the row before. -/
def Fill.absentValue? (fill : Option Fill) (type : FieldType) (before : Option Value) :
    Option Value :=
  match fill with
  | none => some (Cell.zero type).value
  | some .null => some .null
  | some (.value x) => (Kind.ofNumber? x type.kind).map (Value.of type.kind)
  | some .previous => some (before.getD (Cell.zero type).value)

namespace Frame

/-- The instants of a frame: all that some row has, each once, in ascending order. -/
structure DistinctTimes (frame : Frame) (slots : List Instant) : Prop where
  exact : ∀ time, time ∈ slots ↔ ∃ row, frame.timeAt? row = some time
  ascending : slots.Pairwise fun a b => a.before b = true

/-- The combinations of factor texts of a frame: all that some row has, each once, in the order of
the first rows that have them. -/
structure DistinctFactors (frame : Frame) (rows : Nat) (combinations : List (List String)) :
    Prop where
  exact : ∀ factors, factors ∈ combinations ↔ ∃ row < rows, frame.factorsAt row = factors
  firstSeen : combinations.Pairwise fun a b =>
    ((List.range rows).map frame.factorsAt).idxOf a < ((List.range rows).map frame.factorsAt).idxOf b

/-- The column of an observed field for one combination of factor texts. -/
structure SeriesOf (long : Frame) (fill : Option Fill) (slots : List Instant)
    (factors : List String) (source field : Field) : Prop where
  name : field.name = source.name
  config : field.config = source.config
  labels : ∀ key, field.labels.get? key =
    (((long.factorFields.map Field.name).zip factors).reverse.lookup key).or
      (source.labels.get? key)
  type : field.type = if fill = some .null then source.type.allowingNull else source.type
  size : field.column.size = slots.length
  present : ∀ row slot, ∀ time, long.timeAt? row = some time → long.factorsAt row = factors →
    slots[slot]? = some time → field.column.get? slot = source.column.get? row
  absent : ∀ slot, ∀ time, slots[slot]? = some time →
    (∀ row, long.timeAt? row = some time → long.factorsAt row ≠ factors) →
    field.column.get? slot = Fill.absentValue? fill source.type
      (if slot = 0 then none else field.column.get? (slot - 1))

/-- The wide frame that belongs to a long one. -/
structure WideOf (long : Frame) (fill : Option Fill) (rows : Nat) (slots : List Instant)
    (combinations : List (List String)) (wide : Frame) : Prop where
  counted : long.rowCount = .ok rows
  times : long.DistinctTimes slots
  factors : long.DistinctFactors rows combinations
  fields : ∃ source time series, long.timeFields = [source] ∧ wide.fields = time :: series ∧
    time.name = source.name ∧ time.labels = source.labels ∧ time.config = source.config ∧
    time.type = ⟨.time, false⟩ ∧ time.column.values = slots.map (Value.of .time) ∧
    series.length = combinations.length * long.valueFields.length ∧
    List.Forall₂ (fun origin field => long.SeriesOf fill slots origin.1 origin.2 field)
      (combinations.flatMap fun factors => long.valueFields.map fun source => (factors, source))
      series

end Frame

namespace Cell

variable {type : FieldType}

theorem value_forFill (fill : Option Fill) (cell : Cell type) :
    (cell.forFill fill).value = cell.value := by
  match fill with
  | none => rfl
  | some .null =>
    obtain ⟨content, present⟩ := cell
    cases content <;> rfl
  | some (.value _) => rfl
  | some .previous => rfl

end Cell

namespace Fill

variable {type : FieldType} {fill : Option Fill}

theorem columnType_eq (fill : Option Fill) (type : FieldType) :
    columnType fill type = if fill = some .null then type.allowingNull else type := by
  match fill with
  | none => rfl
  | some .null => rfl
  | some (.value _) => rfl
  | some .previous => rfl

private theorem length_repeating (before : Cell type) (cells : List (Option (Cell type))) :
    (repeating before cells).length = cells.length := by
  induction cells generalizing before with
  | nil => rfl
  | cons content rest ih => simp [repeating, ih]

private theorem repeating_present {before cell : Cell type} {cells : List (Option (Cell type))}
    {slot : Nat} (present : cells[slot]? = some (some cell)) :
    (repeating before cells)[slot]? = some cell := by
  induction cells generalizing before slot with
  | nil => simp at present
  | cons content rest ih =>
    cases slot with
    | zero =>
      have here : content = some cell := by simpa using present
      simp [repeating, here]
    | succ slot => simpa [repeating] using ih (by simpa using present)

private theorem repeating_absent (before : Cell type) {cells : List (Option (Cell type))}
    {slot : Nat} (absent : cells[slot]? = some none) :
    (repeating before cells)[slot]? =
      if slot = 0 then some before else (repeating before cells)[slot - 1]? := by
  induction cells generalizing before slot with
  | nil => simp at absent
  | cons content rest ih =>
    cases slot with
    | zero =>
      have here : content = none := by simpa using absent
      simp [repeating, here]
    | succ slot =>
      have later := ih (content.getD before) (by simpa using absent)
      cases slot with
      | zero => simpa [repeating] using later
      | succ slot => simpa [repeating] using later

/-- The cells of a column of which some are absent: as many as before, the present ones kept, and
the others blank unless they repeat the one before them. -/
private structure Completes (fill : Option Fill) (cells : List (Option (Cell type)))
    (blank : Cell type) (filled : Cells type) : Prop where
  cell : Fill.cell fill type = .ok blank
  size : filled.size = cells.length
  present : ∀ (slot : Nat) (cell : Cell type), cells[slot]? = some (some cell) →
    filled.toList[slot]? = some cell
  absent : ∀ slot : Nat, cells[slot]? = some none →
    filled.toList[slot]? =
      if fill = some .previous ∧ slot ≠ 0 then filled.toList[slot - 1]? else some blank

private theorem completes {cells : List (Option (Cell type))} {filled : Cells type}
    (done : complete fill cells = .ok filled) : ∃ blank, Completes fill cells blank filled := by
  obtain ⟨blank, known, done⟩ := bind_eq_ok_iff.1 done
  refine ⟨blank, ?_⟩
  by_cases repeats : fill = some .previous
  · subst repeats
    cases done
    refine ⟨known, length_repeating .., fun slot cell => repeating_present, fun slot absent => ?_⟩
    rw [repeating_absent blank absent]
    by_cases first : slot = 0 <;> simp [first]
  · have filledBlank : filled = ⟨cells.map (·.getD blank)⟩ := by
      split at done
      · exact absurd rfl repeats
      · exact (Except.ok.inj done).symm
    subst filledBlank
    refine ⟨known, List.length_map .., fun slot cell present => ?_, fun slot absent => ?_⟩
    · simp [present]
    · simp [absent, repeats]

/-- The value of the blank cell, where no cell before it counts. -/
private theorem value_blank {blank : Cell (columnType fill type)}
    (known : cell fill (columnType fill type) = .ok blank) (other : fill ≠ some .previous)
    (before : Option Value) : some blank.value = absentValue? fill type before := by
  match fill with
  | none =>
    cases known
    rfl
  | some .null =>
    cases known
    rw [Cell.value_zero_of_nullable rfl]
    rfl
  | some (.value x) =>
    simp only [Fill.cell, columnType] at known
    split at known
    next element found =>
      cases known
      rw [absentValue?, found]
      rfl
    next => cases known
  | some .previous => exact absurd rfl other

/-- What is put into an absent cell, as a value. -/
private theorem value_absent {cells : List (Option (Cell (columnType fill type)))}
    {blank : Cell (columnType fill type)} {filled : Cells (columnType fill type)}
    (completed : Completes fill cells blank filled) {slot : Nat} (absent : cells[slot]? = some none) :
    (filled.toList[slot]?).map Cell.value = absentValue? fill type
      (if slot = 0 then none else (filled.toList[slot - 1]?).map Cell.value) := by
  rw [completed.absent slot absent]
  by_cases repeats : fill = some .previous
  · subst repeats
    cases completed.cell
    by_cases first : slot = 0
    · simp [first, absentValue?, columnType]
    · have inside : slot - 1 < filled.toList.length := by
        have size : filled.toList.length = cells.length := completed.size
        have here := (List.getElem?_eq_some_iff.1 absent).1
        omega
      simp [first, absentValue?, inside]
  · rw [if_neg fun both => repeats both.1, Option.map_some]
    exact value_blank completed.cell repeats _

end Fill

/-- What a column of a wide frame takes over from the field it comes from. -/
theorem Field.ofSeries_parts {fill : Option Fill} {slots : List Instant}
    {observations : List Observation} {names factors : List String} {source field : Field}
    (made : source.ofSeries fill slots observations names factors = .ok field) :
    field.name = source.name ∧ field.labels = source.labels.withFactors names factors ∧
      field.type = Fill.columnType fill source.type := by
  obtain ⟨filled, -, made⟩ := bind_eq_ok_iff.1 made
  cases made
  exact ⟨rfl, rfl, rfl⟩

namespace Frame

variable {long wide : Frame} {fill : Option Fill} {time : Field} {rows : Nat}
variable {times slots : List Instant} {series : List Field}

/-- What a frame is made wide from: the fields and rows that are found, none of the rows made twice,
and the columns that come out of them. -/
structure Pivots (long : Frame) (fill : Option Fill) (time : Field) (rows : Nat)
    (times : List Instant) (series : List Field) : Prop where
  isSeries : long.IsSeries time
  hasFactors : long.factorFields ≠ []
  counted : long.rowCount = .ok rows
  hasRows : rows ≠ 0
  read : time.times = .ok times
  distinct : (long.observations times).Nodup
  series : List.Forall₂
    (fun origin field => origin.2.ofSeries fill (Instant.distinct times) (long.observations times)
      (long.factorFields.map Field.name) origin.1 = .ok field)
    (Observation.series (long.observations times) ×ˢ long.valueFields) series

/-- A frame is made wide out of its parts, and of nothing else. -/
theorem pivots_of_longToWide (pivoted : long.longToWide fill = .ok wide) :
    ∃ time rows times series, long.Pivots fill time rows times series ∧
      wide =
        { name := long.name
          refId := long.refId
          fields := time.ofSlots (Instant.distinct times) :: series
          info := some (long.infoWithShape .timeSeriesWide) } := by
  unfold longToWide at pivoted
  dsimp only at pivoted
  split at pivoted
  next => cases pivoted
  next layout =>
    have isLong : long.seriesRoles.kind = .long := not_not.1 layout
    have known : long.seriesRoles.kind ≠ .not := by simp [isLong]
    obtain ⟨time, isSeries⟩ := isSeries_of_kind known
    obtain ⟨kind, timeField, factors, values⟩ := seriesRead_of_isSeries isSeries
    rw [timeField, factors, values] at pivoted
    obtain ⟨found, same, pivoted⟩ := bind_eq_ok_iff.1 pivoted
    cases same
    obtain ⟨rows, counted, pivoted⟩ := bind_eq_ok_iff.1 pivoted
    split at pivoted
    next => cases pivoted
    next hasRows =>
      obtain ⟨times, read, pivoted⟩ := bind_eq_ok_iff.1 pivoted
      split at pivoted
      next => cases pivoted
      next distinct =>
        obtain ⟨series, made, pivoted⟩ := bind_eq_ok_iff.1 pivoted
        refine ⟨time, rows, times, series, ?_, (Except.ok.inj pivoted).symm⟩
        refine ⟨isSeries, fun none => ?_, counted, hasRows, read, ?_, mapM_eq_ok_iff.1 made⟩
        · rw [kind, if_pos none] at isLong
          cases isLong
        · exact (Observation.firstRepeated?_eq_none.1 distinct).1

namespace Pivots

variable (pivots : long.Pivots fill time rows times series)

include pivots

theorem distinctTimes : long.DistinctTimes (Instant.distinct times) := by
  refine ⟨fun instant => ?_, Instant.distinct_ascending times⟩
  rw [Instant.mem_distinct, List.mem_iff_getElem?]
  simp only [timeAt?_eq pivots.isSeries pivots.read]

theorem distinctFactors :
    long.DistinctFactors rows (Observation.series (long.observations times)) := by
  rw [Observation.series, factors_observations pivots.counted pivots.isSeries pivots.read]
  refine ⟨fun factors => ?_, eraseDups_firstMet _⟩
  rw [List.mem_eraseDups, List.mem_map]
  simp

omit pivots in
/-- The cell of a series before filling is that of the row with its instant and texts. -/
private theorem ofSeries_getElem? {source : Field} {factors : List String} {slot : Nat}
    {instant : Instant} (atSlot : slots[slot]? = some instant) :
    ((source.column.cells.ofSeries slots (long.observations times) factors).map
        (Option.map (Cell.forFill fill)))[slot]? =
      some ((((long.observations times).zip source.column.cells.toList).lookup
        ⟨instant, factors⟩).map (Cell.forFill fill)) := by
  rw [List.getElem?_map, Cells.ofSeries, List.getElem?_map, atSlot]
  rfl

/-- A column of a wide frame holds what the rows of its series hold, and the fill elsewhere. -/
theorem seriesOf {source field : Field} {factors : List String}
    (made : source.ofSeries fill (Instant.distinct times) (long.observations times)
      (long.factorFields.map Field.name) factors = .ok field)
    (isValue : source ∈ long.valueFields) :
    long.SeriesOf fill (Instant.distinct times) factors source field := by
  obtain ⟨filled, done, made⟩ := bind_eq_ok_iff.1 made
  obtain ⟨blank, completed⟩ := Fill.completes done
  have found := Except.ok.inj made
  subst found
  have observed := observations_getElem? pivots.counted pivots.isSeries pivots.read
  refine ⟨rfl, rfl, Labels.get?_withFactors _ _ _, Fill.columnType_eq .., ?_, ?_, ?_⟩
  · exact completed.size.trans (by simp [Cells.ofSeries])
  · intro row slot instant atRow atFactors atSlot
    have here : (long.observations times)[row]? = some ⟨instant, factors⟩ := by
      rw [observed, observationAt?, atRow, atFactors]
      rfl
    have size : source.column.cells.toList.length = rows :=
      (rowCount_eq_ok_iff.1 pivots.counted).2 source (List.mem_filter.1 isValue).1
    have inside : row < source.column.cells.toList.length := by
      rw [size]
      exact row_lt pivots.counted pivots.isSeries pivots.read atRow
    have looked := lookup_zip source.column.cells.toList pivots.distinct here
    rw [List.getElem?_eq_getElem inside] at looked
    have kept := completed.present slot _ ((ofSeries_getElem? atSlot).trans (by rw [looked]; rfl))
    have given : source.column.get? row = some source.column.cells.toList[row].value := by
      simp [Column.get?, Cells.get?, inside]
    rw [given, ← Cell.value_forFill fill]
    exact congrArg (Option.map Cell.value) kept
  · intro slot instant atSlot unseen
    have missing : (⟨instant, factors⟩ : Observation) ∉ long.observations times := by
      intro member
      obtain ⟨row, atRow⟩ := List.mem_iff_getElem?.1 member
      rw [observed, observationAt?, Option.map_eq_some_iff] at atRow
      obtain ⟨found, here, same⟩ := atRow
      cases same
      exact unseen row here rfl
    have looked := lookup_zip_of_not_mem source.column.cells.toList missing
    exact Fill.value_absent completed ((ofSeries_getElem? atSlot).trans (by rw [looked]; rfl))

end Pivots

/-- A frame that is made wide gets the layout and the contents of the wide frame that belongs to
it, whatever the fill. -/
theorem longToWide_wideOf (pivoted : long.longToWide fill = .ok wide) :
    ∃ rows slots combinations, long.WideOf fill rows slots combinations wide := by
  obtain ⟨time, rows, times, series, pivots, rfl⟩ := pivots_of_longToWide pivoted
  refine ⟨rows, Instant.distinct times, Observation.series (long.observations times),
    pivots.counted, pivots.distinctTimes, pivots.distinctFactors, time, _, series,
    pivots.isSeries.time, rfl, rfl, rfl, rfl, rfl, ?_, ?_, ?_⟩
  · simp [Field.ofSlots, Field.withColumn, Column.values, Cells.values, Cell.value_of,
      Function.comp_def]
  · rw [← pivots.series.length_eq]
    exact List.length_product ..
  · apply forall₂_imp_of_mem pivots.series
    intro origin member field made
    exact pivots.seriesOf made (List.mem_product.1 member).2

/-- Readings of two hosts, not in the order of time; one host has none for the first instant. -/
def hostReadings : Frame :=
  let early : Instant := Instant.epoch
  let late : Instant := (Instant.ofParts? 60 0).getD Instant.epoch
  { name := "readings"
    fields :=
      [⟨"time", Labels.empty, none, ⟨⟨.time, false⟩, ⟨[Cell.of late, Cell.of early, Cell.of late]⟩⟩⟩,
        ⟨"host", Labels.empty, none, ⟨⟨.string, false⟩, ⟨[Cell.of "b", Cell.of "a", Cell.of "a"]⟩⟩⟩,
        ⟨"load", Labels.empty, none,
          ⟨⟨.int8, false⟩, ⟨[Cell.of (3 : Int8), Cell.of (1 : Int8), Cell.of (2 : Int8)]⟩⟩⟩] }

theorem longToWide_hostReadings : ∃ wide, hostReadings.longToWide none = .ok wide ∧
    ∃ rows slots combinations, hostReadings.WideOf none rows slots combinations wide := by
  have accepted : ∃ wide, hostReadings.longToWide none = .ok wide := ⟨_, rfl⟩
  obtain ⟨wide, pivoted⟩ := accepted
  exact ⟨wide, pivoted, longToWide_wideOf pivoted⟩

end Frame

end Columnar
