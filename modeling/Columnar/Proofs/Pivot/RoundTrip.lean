import Columnar.Proofs.Pivot.Grid
import Columnar.Proofs.Pivot.Wide

/-! From rows to columns and back. When factors can be told apart by name and none of their cells is
empty, labels carry them faithfully: the wide frame is a whole grid, and making it long again gives
a row for every instant and every combination of texts. Rows that were there are there again with
their values; the others hold what the fill has put into the grid. -/
namespace Columnar

/-- A long frame whose factors and observed fields labels can carry: names tell fields apart, no
factor is missing, and the observed fields bring no labels of their own. -/
structure Frame.Tidy (long : Frame) : Prop where
  factorNames : (long.factorFields.map Field.name).Nodup
  factorCells : ∀ field ∈ long.factorFields, ∀ value ∈ field.column.values, value ≠ .null
  valueNames : (long.valueFields.map Field.name).Nodup
  valueLabels : ∀ field ∈ long.valueFields, field.labels = Labels.empty

/-- A row by names: its instant, the texts of its factors and what is observed. -/
def Frame.recordAt (frame : Frame) (factors values : List String) (row : Nat) :
    Option Instant × List (Option Value) × List (Option Value) :=
  (frame.timeAt? row, factors.map (frame.factorAt? · row), values.map (frame.valueAt? · row))

/-- The long frame that comes back from the wide frame of another one. Its rows are the pairs of an
instant and a combination of factor texts; a pair that had a row has the values of that row, and
one that had none has what the fill has put into the wide frame. -/
structure Frame.LongAgain (long : Frame) (fill : Option Fill) (slots : List Instant)
    (combinations : List (List String)) (wide back : Frame) : Prop where
  counted : back.rowCount = .ok (slots.length * combinations.length)
  factorNames : (back.factorFields.map Field.name).Perm (long.factorFields.map Field.name)
  valueNames : back.valueFields.map Field.name = long.valueFields.map Field.name
  times : ∀ slot set, ∀ time : Instant, slots[slot]? = some time → set < combinations.length →
    back.timeAt? (slot * combinations.length + set) = some time
  factors : ∀ slot set, ∀ factors : List String, slot < slots.length →
    combinations[set]? = some factors →
    (long.factorFields.map Field.name).map
        (back.factorAt? · (slot * combinations.length + set)) =
      factors.map fun text => some (.of .string text)
  cells : ∀ slot set index, ∀ source : Field, slot < slots.length → set < combinations.length →
    long.valueFields[index]? = some source →
    back.valueAt? source.name (slot * combinations.length + set) =
      (wide.fields[1 + set * long.valueFields.length + index]?).bind (·.column.get? slot)
  present : ∀ slot set row, ∀ time : Instant, ∀ factors : List String,
    slots[slot]? = some time → combinations[set]? = some factors →
    long.timeAt? row = some time → long.factorsAt row = factors →
    ∀ source ∈ long.valueFields,
      back.valueAt? source.name (slot * combinations.length + set) = source.column.get? row
  absent : ∀ slot set, ∀ time : Instant, ∀ factors : List String,
    slots[slot]? = some time → combinations[set]? = some factors →
    (∀ row, long.timeAt? row = some time → long.factorsAt row ≠ factors) →
    ∀ source ∈ long.valueFields,
      back.valueAt? source.name (slot * combinations.length + set) =
        Fill.absentValue? fill source.type
          (if slot = 0 then none
            else back.valueAt? source.name ((slot - 1) * combinations.length + set))

/-- The rows of two frames are the same up to order. -/
def Frame.SameRows (first second : Frame) (factors values : List String) (firstRows secondRows : Nat) :
    Prop :=
  ((List.range firstRows).map (first.recordAt factors values)).Perm
    ((List.range secondRows).map (second.recordAt factors values))

namespace Labels

variable {names first second : List String}

/-- The text of a factor is found under its name. -/
theorem get?_ofFactors {texts : List String} (distinct : names.Nodup)
    (size : texts.length = names.length) {index : Nat} {name : String}
    (here : names[index]? = some name) :
    (Labels.empty.withFactors names texts).get? name = texts[index]? := by
  have once : ((names.zip texts).map Prod.fst).Nodup := by
    rwa [List.map_fst_zip (by omega)]
  have found : (names.zip texts).reverse.lookup name = (names.zip texts).lookup name := by
    apply Option.ext
    intro text
    rw [lookup_eq_some_iff_mem once, lookup_eq_some_iff_mem (by simpa using once), List.mem_reverse]
  rw [get?_withFactors, found, lookup_zip texts distinct here]
  exact Option.or_none

/-- The keys of the labels are the names of the factors. -/
theorem isSome_get?_ofFactors {texts : List String} (size : texts.length = names.length)
    (asked : String) :
    ((Labels.empty.withFactors names texts).get? asked).isSome = true ↔ asked ∈ names := by
  have names_eq : ((names.zip texts).map Prod.fst) = names := List.map_fst_zip (by omega)
  rw [get?_withFactors, Option.isSome_or, Bool.or_eq_true, List.lookup_isSome_iff]
  constructor
  · rintro (⟨pair, member, same⟩ | none)
    · rw [eq_of_beq same, ← names_eq]
      exact List.mem_map_of_mem (List.mem_reverse.1 member)
    · cases none
  · intro member
    rw [← names_eq] at member
    obtain ⟨pair, inPairs, rfl⟩ := List.mem_map.1 member
    exact .inl ⟨pair, List.mem_reverse.2 inPairs, by simp⟩

/-- Factor texts can be read off the labels made from them. -/
theorem ofFactors_injective (distinct : names.Nodup) (firstSize : first.length = names.length)
    (secondSize : second.length = names.length)
    (same : Labels.empty.withFactors names first = Labels.empty.withFactors names second) :
    first = second := by
  apply List.ext_getElem?
  intro index
  by_cases inside : index < names.length
  · have here : names[index]? = some names[index] := List.getElem?_eq_getElem inside
    rw [← get?_ofFactors distinct firstSize here, ← get?_ofFactors distinct secondSize here, same]
  · rw [List.getElem?_eq_none (by omega), List.getElem?_eq_none (by omega)]

end Labels

namespace Frame

variable {long wide : Frame} {fill : Option Fill} {time : Field} {rows : Nat}
variable {times : List Instant} {series : List Field}

/-- The labels of a combination of factor texts. -/
def factorLabels (long : Frame) (factors : List String) : Labels :=
  Labels.empty.withFactors (long.factorFields.map Field.name) factors

/-- The type of the columns that come from the observed field of a name. -/
def filledType (long : Frame) (fill : Option Fill) (name : String) : FieldType :=
  match long.valueFields.find? (·.name == name) with
  | some field => Fill.columnType fill field.type
  | none => Fill.columnType fill ⟨.bool, false⟩

namespace Pivots

variable (pivots : long.Pivots fill time rows times series) (tidy : long.Tidy)

/-- The combinations of factor texts, in the order of the columns. -/
abbrev combinations (long : Frame) (times : List Instant) : List (List String) :=
  Observation.series (long.observations times)

include pivots

theorem length_combination {factors : List String}
    (member : factors ∈ combinations long times) :
    factors.length = (long.factorFields.map Field.name).length := by
  obtain ⟨row, -, rfl⟩ := (pivots.distinctFactors.exact factors).1 member
  simp [factorsAt]

omit pivots in
theorem combinations_nodup : (combinations long times).Nodup := nodup_eraseDups _

theorem combinations_ne_nil : combinations long times ≠ [] := by
  have first : long.factorsAt 0 ∈ combinations long times :=
    (pivots.distinctFactors.exact _).2 ⟨0, Nat.pos_of_ne_zero pivots.hasRows, rfl⟩
  exact List.ne_nil_of_mem first

/-- The columns hold numbers or truth values, as those do that they come from. -/
theorem observed : ∀ field ∈ series, field.type.kind.isObserved = true := by
  intro field member
  obtain ⟨origin, inOrigins, made⟩ := exists_left_of_forall₂ pivots.series member
  obtain ⟨-, -, typed⟩ := Field.ofSeries_parts made
  have observed := (List.mem_filter.1 (List.mem_product.1 inOrigins).2).2
  rw [typed, Fill.columnType_eq]
  split <;> exact observed

/-- Every column has a cell for each instant. -/
theorem sizes : ∀ field ∈ series, field.column.size = (Instant.distinct times).length := by
  intro field member
  obtain ⟨origin, inOrigins, made⟩ := exists_left_of_forall₂ pivots.series member
  exact (pivots.seriesOf made (List.mem_product.1 inOrigins).2).size

include tidy

theorem labels_injective {first second : List String}
    (inFirst : first ∈ combinations long times) (inSecond : second ∈ combinations long times)
    (same : long.factorLabels first = long.factorLabels second) : first = second :=
  Labels.ofFactors_injective tidy.factorNames (pivots.length_combination inFirst)
    (pivots.length_combination inSecond) same

omit pivots in
/-- The type that is looked up for a name is that of the field with this name. -/
theorem filledType_eq {source : Field} (isValue : source ∈ long.valueFields) :
    long.filledType fill source.name = Fill.columnType fill source.type := by
  have found := find?_of_nodup_map tidy.valueNames isValue
  rw [filledType, found]

/-- The columns stand combination by combination, in each of them name by name. -/
theorem places_eq :
    series.map Field.place = ((combinations long times).map long.factorLabels) ×ˢ
      (long.valueFields.map Field.name) := by
  have placed : List.Forall₂
      (fun origin field => field.place = (long.factorLabels origin.1, origin.2.name))
      (combinations long times ×ˢ long.valueFields) series := by
    apply forall₂_imp_of_mem pivots.series
    intro origin member field made
    obtain ⟨named, labels, -⟩ := Field.ofSeries_parts made
    rw [Field.place, named, labels, tidy.valueLabels _ (List.mem_product.1 member).2]
    rfl
  rw [map_eq_of_forall₂ placed]
  simp [SProd.sprod, List.product, List.map_flatMap, List.flatMap_map, Function.comp_def]

/-- The wide frame is a whole grid. -/
theorem whole : SeriesGrid.Whole series ((combinations long times).map long.factorLabels)
    (long.valueFields.map Field.name) (long.filledType fill) := by
  refine ⟨pivots.places_eq tidy, ?_, tidy.valueNames, ?_, ?_, ?_⟩
  · refine List.Nodup.map_on (fun first inFirst second inSecond same => ?_) combinations_nodup
    exact pivots.labels_injective tidy inFirst inSecond same
  · simpa using pivots.combinations_ne_nil
  · simpa using pivots.isSeries.values
  · intro field member
    obtain ⟨origin, inOrigins, made⟩ := exists_left_of_forall₂ pivots.series member
    obtain ⟨named, -, typed⟩ := Field.ofSeries_parts made
    rw [typed, named, filledType_eq tidy (List.mem_product.1 inOrigins).2]

theorem wideGrid (made : wide.fields = time.ofSlots (Instant.distinct times) :: series) :
    wide.WideGrid (time.ofSlots (Instant.distinct times)) (Instant.distinct times) series
      ((combinations long times).map long.factorLabels) (long.valueFields.map Field.name)
      (long.filledType fill) := by
  refine ⟨made, rfl, ?_, Instant.distinct_ascending times, pivots.whole tidy, pivots.observed,
    pivots.sizes⟩
  simp [Field.ofSlots, Field.withColumn, Column.values, Cells.values, Function.comp_def]

/-- The label keys of the wide frame are the names of the factors. -/
theorem keys_perm :
    ((SeriesGrid.ofFields series).keys).Perm (long.factorFields.map Field.name) := by
  apply (List.perm_ext_iff_of_nodup (Labels.keys_nodup _) tidy.factorNames).2
  intro key
  have ofCombination : ∀ factors ∈ combinations long times,
      (((long.factorLabels factors).get? key).isSome = true ↔
        key ∈ long.factorFields.map Field.name) := fun factors member =>
    Labels.isSome_get?_ofFactors (pivots.length_combination member) key
  show key ∈ (series.foldl (fun labels field => labels.extend field.labels) Labels.empty).keys ↔ _
  rw [Labels.mem_keys, Labels.isSome_get?_foldl_extend Field.labels]
  constructor
  · rintro (none | ⟨field, member, hasKey⟩)
    · cases none
    · obtain ⟨origin, inOrigins, made⟩ := exists_left_of_forall₂ pivots.series member
      obtain ⟨inCombinations, isValue⟩ := List.mem_product.1 inOrigins
      obtain ⟨-, labels, -⟩ := Field.ofSeries_parts made
      rw [labels, tidy.valueLabels _ isValue] at hasKey
      exact (ofCombination _ inCombinations).1 hasKey
  · intro isFactor
    obtain ⟨factors, others, some⟩ := List.exists_cons_of_ne_nil pivots.combinations_ne_nil
    obtain ⟨source, more, valued⟩ := List.exists_cons_of_ne_nil pivots.isSeries.values
    have inCombinations : factors ∈ combinations long times := by simp [some]
    have inNames : source.name ∈ long.valueFields.map Field.name := by simp [valued]
    obtain ⟨field, member, -, labels, -⟩ := (pivots.whole tidy).field?_eq_some
      (List.mem_map_of_mem inCombinations) inNames
    exact .inr ⟨field, member, by rw [labels]; exact (ofCombination _ inCombinations).2 isFactor⟩

/-- The column of a combination and an observed field, and where it stands. -/
theorem column_at {set index : Nat} {factors : List String} {source : Field}
    (inSets : (combinations long times)[set]? = some factors)
    (inValues : long.valueFields[index]? = some source) :
    ∃ field, series[set * long.valueFields.length + index]? = some field ∧
      (SeriesGrid.ofFields series).field? source.name (long.factorLabels factors) = some field ∧
      long.SeriesOf fill (Instant.distinct times) factors source field := by
  have placed : (combinations long times ×ˢ long.valueFields)[
      set * long.valueFields.length + index]? = some (factors, source) := by
    obtain ⟨inside, same⟩ := List.getElem?_eq_some_iff.1 inValues
    have found := getElem?_flatMap_map (combinations long times) long.valueFields Prod.mk set inside
    rw [inSets, Option.map_some, same] at found
    exact found
  obtain ⟨field, here, made⟩ := getElem?_of_forall₂ pivots.series placed
  have isValue : source ∈ long.valueFields := List.mem_of_getElem? inValues
  obtain ⟨named, labels, -⟩ := Field.ofSeries_parts made
  have labelled : field.labels = long.factorLabels factors := by
    rw [labels, tidy.valueLabels source isValue]
    rfl
  refine ⟨field, here, ?_, pivots.seriesOf made isValue⟩
  rw [← labelled, ← named]
  exact (pivots.whole tidy).field?_of_mem (List.mem_of_getElem? here)

omit pivots tidy in
private theorem get?_eq_textAt {column : Column} {row : Nat} (isString : column.type.kind = .string)
    (present : ∀ value ∈ column.values, value ≠ .null) (inside : row < column.size) :
    column.get? row = some (.of .string (column.textAt row)) := by
  obtain ⟨⟨kind, nullable⟩, cells⟩ := column
  cases isString
  have bound : row < cells.toList.length := inside
  have found : Column.get? ⟨⟨.string, nullable⟩, cells⟩ row = some cells.toList[row].value := by
    simp [Column.get?, Cells.get?, bound]
  have member : cells.toList[row].value ∈ cells.values :=
    List.mem_map_of_mem (List.getElem_mem bound)
  have notNull := present _ member
  rw [Column.textAt, found, Option.getD_some]
  rw [Cell.value] at notNull ⊢
  cases content : cells.toList[row].content with
  | none =>
    rw [content] at notNull
    exact absurd rfl notNull
  | some text => rfl

omit pivots in
/-- A factor that is not missing has its text under its name. -/
theorem factorAt?_eq {source : Field} (isFactor : source ∈ long.factorFields) {row : Nat}
    (inside : row < source.column.size) :
    long.factorAt? source.name row = some (.of .string (source.column.textAt row)) := by
  have isString : source.type.kind = .string := by simpa using (List.mem_filter.1 isFactor).2
  rw [factorAt?, find?_of_nodup_map tidy.factorNames isFactor, Option.bind_some]
  exact get?_eq_textAt isString (tidy.factorCells source isFactor) inside

/-- The factors of a row by their names. -/
theorem factors_eq {row : Nat} (inside : row < rows) :
    (long.factorFields.map Field.name).map (long.factorAt? · row) =
      (long.factorsAt row).map fun text => some (.of .string text) := by
  rw [factorsAt, List.map_map, List.map_map]
  apply List.map_congr_left
  intro source isFactor
  refine factorAt?_eq tidy isFactor ?_
  rw [(rowCount_eq_ok_iff.1 pivots.counted).2 source (List.mem_filter.1 isFactor).1]
  exact inside

omit pivots in
/-- The value of an observed field under its name. -/
theorem valueAt?_eq {source : Field} (isValue : source ∈ long.valueFields) (row : Nat) :
    long.valueAt? source.name row = source.column.get? row := by
  rw [valueAt?, find?_of_nodup_map tidy.valueNames isValue, Option.bind_some]

section Back

variable (made : wide.fields = time.ofSlots (Instant.distinct times) :: series)
variable {columns : List Field}
variable (long_ : List.Forall₂
  (WideGrid.LongColumn series (Instant.distinct times) (long.filledType fill))
  (long.valueFields.map Field.name) columns)

/-- The frame that comes back. -/
private abbrev backOf (long wide : Frame) (time : Field) (times : List Instant)
    (series columns : List Field) : Frame :=
  WideGrid.longFrame wide (time.ofSlots (Instant.distinct times)) (Instant.distinct times) series
    ((combinations long times).map long.factorLabels) columns

include made long_

theorem back_valueAt? {slot set : Nat} {source : Field} {field : Field} {factors : List String}
    (inside : slot < (Instant.distinct times).length)
    (inSets : (combinations long times)[set]? = some factors) (isValue : source ∈ long.valueFields)
    (column : (SeriesGrid.ofFields series).field? source.name (long.factorLabels factors) =
      some field) :
    (backOf long wide time times series columns).valueAt? source.name
        (slot * (combinations long times).length + set) = field.column.get? slot := by
  obtain ⟨bound, same⟩ := List.getElem?_eq_some_iff.1 inSets
  have found := (pivots.wideGrid tidy made).longFrame_valueAt? long_
    (List.mem_map_of_mem isValue) inside (by simpa using bound)
  simp only [List.length_map, List.getElem_map, same, column, Option.bind_some] at found
  exact found

/-- The factors of a row of the result are the texts of its combination. -/
theorem back_factors {slot set : Nat} {factors : List String}
    (inside : slot < (Instant.distinct times).length)
    (inSets : (combinations long times)[set]? = some factors) :
    (long.factorFields.map Field.name).map
        ((backOf long wide time times series columns).factorAt? ·
          (slot * (combinations long times).length + set)) =
      factors.map fun text => some (.of .string text) := by
  obtain ⟨bound, same⟩ := List.getElem?_eq_some_iff.1 inSets
  have length := pivots.length_combination (List.mem_of_getElem? inSets)
  apply List.ext_getElem
  · simp [length]
  · intro index first second
    have inFactors : index < long.factorFields.length := by simpa using first
    have inTexts : index < factors.length := by simpa using second
    obtain ⟨name, named⟩ : ∃ name, long.factorFields[index].name = name := ⟨_, rfl⟩
    have here : (long.factorFields.map Field.name)[index]? = some name := by
      rw [List.getElem?_map, List.getElem?_eq_getElem inFactors, Option.map_some, named]
    have text := Labels.get?_ofFactors tidy.factorNames length here
    have isKey := (pivots.keys_perm tidy).mem_iff.2 (List.mem_of_getElem? here)
    have found := (pivots.wideGrid tidy made).longFrame_factorAt? long_ isKey inside
      (by simpa using bound)
    simp only [List.length_map, List.getElem_map, same] at found
    rw [List.getElem_map, List.getElem_map, List.getElem_map, named, found, factorLabels, text,
      List.getElem?_eq_getElem inTexts]
    rfl

theorem longAgain : long.LongAgain fill (Instant.distinct times) (combinations long times) wide
    (backOf long wide time times series columns) := by
  have grid := pivots.wideGrid tidy made
  have size : ((combinations long times).map long.factorLabels).length =
      (combinations long times).length := List.length_map ..
  refine ⟨?_, ?_, ?_, ?_, ?_, ?_, ?_, ?_⟩
  · rw [grid.longFrame_rowCount long_, size]
  · rw [(grid.longFrame_inRoles long_).factorFields_eq, List.map_map]
    simpa [Function.comp_def, WideGrid.textColumn] using pivots.keys_perm tidy
  · rw [(grid.longFrame_inRoles long_).valueFields_eq, map_eq_of_forall₂ (f := id) (g := Field.name),
      List.map_id]
    exact long_.imp fun name field here => here.named
  · intro slot set instant atSlot inSets
    rw [← atSlot, ← size]
    exact grid.longFrame_timeAt? long_ (by rwa [size])
  · intro slot set factors inside inSets
    exact pivots.back_factors tidy made long_ inside inSets
  · intro slot set index source inside inSets inValues
    have atSet := List.getElem?_eq_getElem inSets
    obtain ⟨field, here, found, -⟩ := pivots.column_at tidy atSet inValues
    rw [pivots.back_valueAt? tidy made long_ inside atSet (List.mem_of_getElem? inValues) found,
      made, Nat.add_assoc, Nat.add_comm 1, List.getElem?_cons_succ, here, Option.bind_some]
  · intro slot set row instant factors atSlot atSet atRow atFactors source isValue
    obtain ⟨index, inValues⟩ := List.mem_iff_getElem?.1 isValue
    obtain ⟨field, -, found, isSeries⟩ := pivots.column_at tidy atSet inValues
    have inside := (List.getElem?_eq_some_iff.1 atSlot).1
    rw [pivots.back_valueAt? tidy made long_ inside atSet isValue found]
    exact isSeries.present row slot instant atRow atFactors atSlot
  · intro slot set instant factors atSlot atSet unseen source isValue
    obtain ⟨index, inValues⟩ := List.mem_iff_getElem?.1 isValue
    obtain ⟨field, -, found, isSeries⟩ := pivots.column_at tidy atSet inValues
    have inside := (List.getElem?_eq_some_iff.1 atSlot).1
    have before : slot - 1 < (Instant.distinct times).length := by omega
    rw [pivots.back_valueAt? tidy made long_ inside atSet isValue found,
      pivots.back_valueAt? tidy made long_ before atSet isValue found]
    exact isSeries.absent slot instant atSlot unseen

end Back

section Dense

variable {back : Frame}
variable (again : long.LongAgain fill (Instant.distinct times) (combinations long times) wide back)

omit pivots tidy in
private theorem texts_injective {first second : List String}
    (same : first.map (fun text => some (Value.of .string text)) =
      second.map fun text => some (Value.of .string text)) : first = second := by
  refine List.map_injective_iff.2 (fun a b same => ?_) same
  simpa using same

/-- The rows of a frame that can be made wide all differ in their instant or their factors. -/
theorem records_nodup : ((List.range rows).map (long.recordAt (long.factorFields.map Field.name)
    (long.valueFields.map Field.name))).Nodup := by
  refine List.Nodup.map_on (fun row inRows other inOthers same => ?_) List.nodup_range
  rw [List.mem_range] at inRows inOthers
  simp only [recordAt, Prod.mk.injEq] at same
  obtain ⟨instants, factors, -⟩ := same
  rw [pivots.factors_eq tidy inRows, pivots.factors_eq tidy inOthers] at factors
  have observed := observations_getElem? pivots.counted pivots.isSeries pivots.read
  have inside : row < (long.observations times).length := by
    have sizes := congrArg List.length (factors_observations pivots.counted pivots.isSeries pivots.read)
    simp only [List.length_map, List.length_range] at sizes
    omega
  refine (List.getElem?_inj inside pivots.distinct).1 ?_
  rw [observed, observed, observationAt?, observationAt?, instants, texts_injective factors]

include again

/-- A pair that had a row has the same record again. -/
theorem record_eq {slot set row : Nat} {instant : Instant} {factors : List String}
    (atSlot : (Instant.distinct times)[slot]? = some instant)
    (atSet : (combinations long times)[set]? = some factors)
    (atRow : long.timeAt? row = some instant) (atFactors : long.factorsAt row = factors) :
    back.recordAt (long.factorFields.map Field.name) (long.valueFields.map Field.name)
        (slot * (combinations long times).length + set) =
      long.recordAt (long.factorFields.map Field.name) (long.valueFields.map Field.name) row := by
  have inRows : row < rows := row_lt pivots.counted pivots.isSeries pivots.read atRow
  have inside := (List.getElem?_eq_some_iff.1 atSlot).1
  have inSets := (List.getElem?_eq_some_iff.1 atSet).1
  rw [recordAt, recordAt, again.times slot set instant atSlot inSets, atRow,
    again.factors slot set factors inside atSet, pivots.factors_eq tidy inRows, atFactors]
  have values : (long.valueFields.map Field.name).map
      (back.valueAt? · (slot * (combinations long times).length + set)) =
        (long.valueFields.map Field.name).map (long.valueAt? · row) := by
    rw [List.map_map, List.map_map]
    apply List.map_congr_left
    intro source isValue
    exact (again.present slot set row instant factors atSlot atSet atRow atFactors source
      isValue).trans (valueAt?_eq tidy isValue row).symm
  rw [values]

omit pivots tidy in
/-- No two rows of the result belong to one pair of an instant and a combination. -/
theorem back_records_nodup :
    ((List.range ((Instant.distinct times).length * (combinations long times).length)).map
      (back.recordAt (long.factorFields.map Field.name) (long.valueFields.map Field.name))).Nodup := by
  refine List.Nodup.map_on (fun row inRows other inOthers same => ?_) List.nodup_range
  rw [List.mem_range] at inRows inOthers
  obtain ⟨slot, set, inside, inSets, rfl⟩ := exists_pair_of_lt inRows
  obtain ⟨slot', set', inside', inSets', rfl⟩ := exists_pair_of_lt inOthers
  have atSet := List.getElem?_eq_getElem inSets
  have atSet' := List.getElem?_eq_getElem inSets'
  simp only [recordAt, Prod.mk.injEq] at same
  obtain ⟨instants, factors, -⟩ := same
  rw [again.times slot set _ (List.getElem?_eq_getElem inside) inSets,
    again.times slot' set' _ (List.getElem?_eq_getElem inside') inSets'] at instants
  rw [again.factors slot set _ inside atSet, again.factors slot' set' _ inside' atSet'] at factors
  have slots : (Instant.distinct times).Nodup :=
    (Instant.distinct_ascending times).imp Instant.ne_of_before
  have sameSlot : slot = slot' := (slots.getElem_inj_iff).1 (Option.some.inj instants)
  have sameSet : set = set' :=
    (combinations_nodup.getElem_inj_iff).1 (texts_injective factors)
  rw [sameSlot, sameSet]

theorem sameRows (dense : ∀ instant ∈ Instant.distinct times, ∀ factors ∈ combinations long times,
      ∃ row, long.timeAt? row = some instant ∧ long.factorsAt row = factors) :
    back.SameRows long (long.factorFields.map Field.name) (long.valueFields.map Field.name)
      ((Instant.distinct times).length * (combinations long times).length) rows := by
  refine (List.perm_ext_iff_of_nodup (back_records_nodup again)
    (pivots.records_nodup tidy)).2 fun record => ?_
  rw [List.mem_map, List.mem_map]
  constructor
  · rintro ⟨row, inRows, rfl⟩
    obtain ⟨slot, set, inside, inSets, rfl⟩ := exists_pair_of_lt (List.mem_range.1 inRows)
    obtain ⟨source, atRow, atFactors⟩ :=
      dense _ (List.getElem_mem inside) _ (List.getElem_mem inSets)
    refine ⟨source, ?_, (pivots.record_eq tidy again (List.getElem?_eq_getElem inside)
      (List.getElem?_eq_getElem inSets) atRow atFactors).symm⟩
    exact List.mem_range.2 (row_lt pivots.counted pivots.isSeries pivots.read atRow)
  · rintro ⟨row, inRows, rfl⟩
    have inTimes : row < times.length := by
      rw [length_times pivots.counted pivots.isSeries pivots.read]
      exact List.mem_range.1 inRows
    have atRow : long.timeAt? row = some times[row] := by
      rw [timeAt?_eq pivots.isSeries pivots.read, List.getElem?_eq_getElem inTimes]
    obtain ⟨slot, atSlot⟩ := List.mem_iff_getElem?.1 ((pivots.distinctTimes.exact _).2 ⟨row, atRow⟩)
    obtain ⟨set, atSet⟩ := List.mem_iff_getElem?.1
      ((pivots.distinctFactors.exact _).2 ⟨row, List.mem_range.1 inRows, rfl⟩)
    refine ⟨slot * (combinations long times).length + set, List.mem_range.2 ?_,
      pivots.record_eq tidy again atSlot atSet atRow rfl⟩
    exact pair_lt (List.getElem?_eq_some_iff.1 atSlot).1 (List.getElem?_eq_some_iff.1 atSet).1

end Dense

end Pivots

/-- Making a tidy long frame wide and long again loses no observation and invents none: there is
one row for every instant and combination of factor texts, with the values of the row that the pair
had, or what the fill has put there; and when every pair had a row, the rows are the same. -/
theorem wideToLong_longToWide (pivoted : long.longToWide fill = .ok wide) (tidy : long.Tidy) :
    ∃ rows slots combinations back, long.rowCount = .ok rows ∧ long.DistinctTimes slots ∧
      long.DistinctFactors rows combinations ∧ wide.wideToLong = .ok back ∧
      long.LongAgain fill slots combinations wide back ∧
      ((∀ instant ∈ slots, ∀ factors ∈ combinations,
          ∃ row, long.timeAt? row = some instant ∧ long.factorsAt row = factors) →
        back.SameRows long (long.factorFields.map Field.name) (long.valueFields.map Field.name)
          (slots.length * combinations.length) rows) := by
  obtain ⟨time, rows, times, series, pivots, isWide⟩ := pivots_of_longToWide pivoted
  have fields : wide.fields = time.ofSlots (Instant.distinct times) :: series := by rw [isWide]
  obtain ⟨columns, isLong, made⟩ := (pivots.wideGrid tidy fields).wideToLong_eq
  have again := pivots.longAgain tidy fields isLong
  exact ⟨rows, _, _, _, pivots.counted, pivots.distinctTimes, pivots.distinctFactors, made, again,
    pivots.sameRows tidy again⟩

theorem tidy_hostReadings : hostReadings.Tidy := by
  refine ⟨by decide, ?_, by decide, ?_⟩
  · intro field isFactor value member
    have only : hostReadings.factorFields = [hostReadings.fields[1]] := rfl
    rw [only, List.mem_singleton] at isFactor
    subst isFactor
    have values : hostReadings.fields[1].column.values =
        [.of .string "b", .of .string "a", .of .string "a"] := rfl
    rw [values] at member
    rintro rfl
    simp at member
  · intro field isValue
    have only : hostReadings.valueFields = [hostReadings.fields[2]] := rfl
    rw [only, List.mem_singleton] at isValue
    subst isValue
    rfl

theorem wideToLong_hostReadings :
    ∃ wide, hostReadings.longToWide (some .previous) = .ok wide ∧ hostReadings.Tidy ∧
      ∃ rows slots combinations back, hostReadings.rowCount = .ok rows ∧
        hostReadings.DistinctTimes slots ∧ hostReadings.DistinctFactors rows combinations ∧
        wide.wideToLong = .ok back ∧
        hostReadings.LongAgain (some .previous) slots combinations wide back := by
  have accepted : ∃ wide, hostReadings.longToWide (some .previous) = .ok wide := ⟨_, rfl⟩
  obtain ⟨wide, pivoted⟩ := accepted
  obtain ⟨rows, slots, combinations, back, counted, times, factors, made, again, -⟩ :=
    wideToLong_longToWide pivoted tidy_hostReadings
  exact ⟨wide, pivoted, tidy_hostReadings, rows, slots, combinations, back, counted, times, factors,
    made, again⟩

end Frame

end Columnar
