import Columnar.Proofs.Columns
import Columnar.Proofs.Pivot.Placing
import Columnar.Proofs.Pivot.WideAgain

/-! Writing cell by cell makes the wide frame of a long one. After some of the rows every column holds
what its series has in those rows and is blank elsewhere, and the marks say where; the last row leaves
the cells of the whole series, and the fill completes them. -/
namespace Columnar

section Lists

variable {α β : Type}

/-- A list whose elements are told apart, with the image of one of them changed. -/
theorem modify_map_eq {items : List α} {f g : α → β} {change : β → β} {index : Nat} {item : α}
    (distinct : items.Nodup) (here : items[index]? = some item) (changed : change (f item) = g item)
    (others : ∀ other ∈ items, other ≠ item → g other = f other) :
    (items.map f).modify index change = items.map g := by
  obtain ⟨inside, rfl⟩ := List.getElem?_eq_some_iff.1 here
  apply List.ext_getElem (by simp)
  intro place first second
  have there : place < items.length := by simpa using second
  rw [List.getElem_modify, List.getElem_map, List.getElem_map]
  split
  next same =>
    subst same
    exact changed
  next differ =>
    exact (others _ (List.getElem_mem there) fun same =>
      differ (distinct.getElem_inj_iff.1 same).symm).symm

theorem set_map_eq {items : List α} {f g : α → β} {index : Nat} {item : α} {image : β}
    (distinct : items.Nodup) (here : items[index]? = some item) (changed : image = g item)
    (others : ∀ other ∈ items, other ≠ item → g other = f other) :
    (items.map f).set index image = items.map g := by
  rw [List.set_eq_modify]
  exact modify_map_eq distinct here changed others

/-- A list is cut in three at the one place of an element. -/
theorem exists_cut {items : List α} {index : Nat} {item : α} (distinct : items.Nodup)
    (here : items[index]? = some item) :
    ∃ before after, items = before ++ item :: after ∧ before.length = index ∧
      item ∉ before ∧ item ∉ after := by
  obtain ⟨inside, rfl⟩ := List.getElem?_eq_some_iff.1 here
  have cut : items = items.take index ++ items[index] :: items.drop (index + 1) := by
    rw [List.getElem_cons_drop, List.take_append_drop]
  rw [cut, List.nodup_append, List.nodup_cons] at distinct
  obtain ⟨-, ⟨notAfter, -⟩, apart⟩ := distinct
  exact ⟨_, _, cut, List.length_take_of_le (Nat.le_of_lt inside),
    fun member => apart _ member _ List.mem_cons_self rfl, notAfter⟩

end Lists

/-! ## Columns laid out by combination and source -/

/-- The fields of a wide frame: the time, and a block of columns for each combination. -/
def blocks (time : Field) (combinations : List (List String)) (sources : List Field)
    (column : List String → Field → Field) : List Field :=
  time :: combinations.flatMap fun texts => sources.map (column texts)

/-- One field becomes another by a change of its column. -/
structure Field.Becomes (change : Column → Except Error Column) (old new : Field) : Prop where
  changed : change old.column = .ok new.column
  kept : old.withColumn new.column = new

theorem changeAt_of_becomes {change : Column → Except Error Column} {old new : Field}
    (becomes : old.Becomes change new) (before after : List Field) :
    changeAt change (before ++ old :: after) before.length = .ok (before ++ new :: after) := by
  have here : (before ++ old :: after)[before.length]? = some old := by simp
  rw [changeAt, here]
  simp only [becomes.changed, bind, Except.bind, becomes.kept, List.set_append_right _ _ (Nat.le_refl _),
    Nat.sub_self, List.set_cons_zero]
  rfl

section Blocks

variable {time : Field} {combinations : List (List String)} {sources : List Field}
variable {old new : List String → Field → Field}

/-- Storing a row changes the columns of its block, each by one value. -/
theorem storeValues_eq {row slot : Nat} {sources : List Field} {old new : Field → Field}
    (before after : List Field)
    (each : ∀ source ∈ sources, ∃ value, source.column.get row = .ok value ∧
      (old source).Becomes (·.set slot value) (new source)) :
    storeValues row slot before.length sources (before ++ sources.map old ++ after) =
      .ok (before ++ sources.map new ++ after) := by
  induction sources generalizing before with
  | nil => rfl
  | cons source rest ih =>
    obtain ⟨value, read, becomes⟩ := each source (by simp)
    have changed := changeAt_of_becomes becomes before (rest.map old ++ after)
    have later := ih (before ++ [new source]) fun other member => each other (by simp [member])
    rw [List.length_append, List.length_singleton] at later
    rw [storeValues, read]
    simp only [List.map_cons, List.append_assoc, List.cons_append, bind, Except.bind, changed]
    simpa using later

/-- Filling a block changes each of its columns. -/
theorem fillBlock_eq {fill : Fill} {written : List Bool} {sources : List Field}
    {old new : Field → Field} (before after : List Field)
    (each : ∀ source ∈ sources, (old source).Becomes (fill.fillColumn written) (new source)) :
    fill.fillBlock written before.length sources.length (before ++ sources.map old ++ after) =
      .ok (before ++ sources.map new ++ after) := by
  induction sources generalizing before with
  | nil => rfl
  | cons source rest ih =>
    have changed := changeAt_of_becomes (each source (by simp)) before (rest.map old ++ after)
    have later := ih (before ++ [new source]) fun other member => each other (by simp [member])
    rw [List.length_append, List.length_singleton] at later
    rw [List.length_cons, Fill.fillBlock]
    simp only [List.map_cons, List.append_assoc, List.cons_append, bind, Except.bind, changed]
    simpa using later

/-- The index at which the block of a combination begins. -/
theorem length_before_block (time : Field) (before : List (List String)) (sources : List Field)
    (column : List String → Field → Field) :
    (time :: before.flatMap fun texts => sources.map (column texts)).length =
      1 + before.length * sources.length := by
  rw [List.length_cons, length_flatMap_map, Nat.add_comm]

/-- Storing a row leaves the blocks of the other combinations alone. -/
theorem storeValues_blocks {row slot combination : Nat} {texts : List String}
    (distinct : combinations.Nodup) (here : combinations[combination]? = some texts)
    (others : ∀ other ≠ texts, ∀ source ∈ sources, new other source = old other source)
    (each : ∀ source ∈ sources, ∃ value, source.column.get row = .ok value ∧
      (old texts source).Becomes (·.set slot value) (new texts source)) :
    storeValues row slot (1 + combination * sources.length) sources
        (blocks time combinations sources old) =
      .ok (blocks time combinations sources new) := by
  obtain ⟨before, after, rfl, rfl, notBefore, notAfter⟩ := exists_cut distinct here
  have same : ∀ list : List (List String), texts ∉ list →
      (list.flatMap fun texts => sources.map (new texts)) =
        list.flatMap fun texts => sources.map (old texts) := by
    intro list absent
    rw [List.flatMap_def, List.flatMap_def]
    congr 1
    apply List.map_congr_left
    intro other member
    exact List.map_congr_left (others other fun same => absent (same ▸ member))
  have stored := storeValues_eq (time :: before.flatMap fun texts => sources.map (old texts))
    (after.flatMap fun texts => sources.map (old texts)) each
  rw [length_before_block] at stored
  simpa [blocks, same before notBefore, same after notAfter] using stored

/-- The fill goes from block to block. -/
theorem fillAll_eq {fill : Fill} {marksOf : List String → List Bool} (time : Field)
    (done rest : List (List String))
    (each : ∀ texts ∈ rest, ∀ source ∈ sources,
      (old texts source).Becomes (fill.fillColumn (marksOf texts)) (new texts source)) :
    fill.fillAll sources.length done.length (rest.map marksOf)
        ((time :: done.flatMap fun texts => sources.map (new texts)) ++
          rest.flatMap fun texts => sources.map (old texts)) =
      .ok (blocks time (done ++ rest) sources new) := by
  induction rest generalizing done with
  | nil => simp [Fill.fillAll, blocks]
  | cons texts rest ih =>
    have filled := fillBlock_eq (time :: done.flatMap fun texts => sources.map (new texts))
      (rest.flatMap fun texts => sources.map (old texts)) (each texts (by simp))
    have later := ih (done ++ [texts]) fun other member => each other (by simp [member])
    rw [length_before_block] at filled
    rw [List.length_append, List.length_singleton] at later
    rw [List.map_cons, Fill.fillAll, List.flatMap_cons, ← List.append_assoc, filled]
    simpa [bind, Except.bind] using later

end Blocks

/-! ## Rows that have been written -/

section Written

variable {fill : Option Fill} {slots : List Instant} {observations : List Observation}
variable {combinations : List (List String)} {names texts : List String}
variable {rows : Nat} {observation : Observation}

/-- The cells of a series when the first rows have been written, absent where none of them is its
own. -/
def Cells.written {type : FieldType} (fill : Option Fill) (slots : List Instant)
    (observations : List Observation) (rows : Nat) (texts : List String) (cells : Cells type) :
    List (Option (Cell (Fill.columnType fill type))) :=
  slots.map fun slot =>
    (((observations.zip cells.toList).take rows).lookup ⟨slot, texts⟩).map (Cell.forFill fill)

/-- The column of a series when the first rows have been written. -/
def Column.written (fill : Option Fill) (slots : List Instant) (observations : List Observation)
    (rows : Nat) (texts : List String) (column : Column) : Column :=
  ⟨Fill.columnType fill column.type,
    ⟨(column.cells.written fill slots observations rows texts).map (·.getD (Cell.zero _))⟩⟩

/-- The field of a series when the first rows have been written. -/
def Field.written (fill : Option Fill) (slots : List Instant) (names : List String)
    (observations : List Observation) (rows : Nat) (texts : List String) (source : Field) : Field :=
  (source.blankSeries fill slots.length names texts).withColumn
    (source.column.written fill slots observations rows texts)

/-- The marks when the first rows have been written. -/
def Marks.written (slots : List Instant) (combinations : List (List String))
    (observations : List Observation) (rows : Nat) : Marks :=
  combinations.map fun texts => slots.map fun slot => decide (⟨slot, texts⟩ ∈ observations.take rows)

/-- What is found among one row more. -/
private theorem lookup_take_succ {β : Type} {values : List β} {value : β} (asked : Observation)
    (here : observations[rows]? = some observation) (there : values[rows]? = some value) :
    ((observations.zip values).take (rows + 1)).lookup asked =
      (((observations.zip values).take rows).lookup asked).or
        (if asked = observation then some value else none) := by
  have pair : (observations.zip values)[rows]? = some (observation, value) := by
    rw [List.zip, List.getElem?_zipWith, here, there]
  rw [List.take_add_one, pair, List.lookup_append]
  by_cases same : asked = observation
  · simp [same]
  · simp [lookup_cons_of_ne same, same]

namespace Column

variable {column : Column}

/-- No cell has been written before the first row. -/
theorem written_zero (column : Column) :
    column.written fill slots observations 0 texts =
      Column.zeros (Fill.columnType fill column.type) slots.length := by
  simp [written, Cells.written, zeros, Cells.zeros, List.map_const']

theorem size_written (column : Column) :
    (column.written fill slots observations rows texts).size = slots.length := by
  simp [written, Cells.written, size, Cells.size]

private theorem exists_cell (here : observations[rows]? = some observation)
    (even : column.size = observations.length) : ∃ cell, column.cells.toList[rows]? = some cell := by
  have inside := (List.getElem?_eq_some_iff.1 here).1
  rw [← even] at inside
  exact ⟨_, List.getElem?_eq_getElem inside⟩

/-- A row of another combination does not concern a column. -/
theorem written_other (here : observations[rows]? = some observation)
    (even : column.size = observations.length) (differ : texts ≠ observation.factors) :
    column.written fill slots observations (rows + 1) texts =
      column.written fill slots observations rows texts := by
  obtain ⟨cell, there⟩ := exists_cell here even
  have same : column.cells.written fill slots observations (rows + 1) texts =
      column.cells.written fill slots observations rows texts := by
    apply List.map_congr_left
    intro slot _
    rw [lookup_take_succ _ here there, if_neg fun same => differ (congrArg Observation.factors same),
      Option.or_none]
  rw [written, written, same]

/-- A row is one value set in the column of its combination. -/
theorem set_written {slot : Nat} (fill : Option Fill) (distinct : slots.Nodup)
    (here : observations[rows]? = some observation) (even : column.size = observations.length)
    (fresh : observation ∉ observations.take rows) (atSlot : slots[slot]? = some observation.time) :
    ∃ value, column.get rows = .ok value ∧
      (column.written fill slots observations rows observation.factors).set slot value =
        .ok (column.written fill slots observations (rows + 1) observation.factors) := by
  obtain ⟨cell, there⟩ := exists_cell here even
  have unwritten : ((observations.zip column.cells.toList).take rows).lookup observation = none := by
    rw [List.zip, List.take_zipWith]
    exact lookup_zip_of_not_mem _ fresh
  have inside : checkIndex slot
      (column.written fill slots observations rows observation.factors).size = .ok () := by
    rw [checkIndex, size_written, if_pos (List.getElem?_eq_some_iff.1 atSlot).1]
  have made := Cell.ofValue_value (cell.forFill fill)
  rw [Cell.value_forFill] at made
  refine ⟨cell.value, by rw [get, get?, Cells.get?, there]; rfl, ?_⟩
  refine bind_eq_ok_iff.2 ⟨(), inside, bind_eq_ok_iff.2 ⟨_, made, ?_⟩⟩
  refine congrArg (fun cells => Except.ok (Column.mk _ (Cells.mk cells))) ?_
  change ((column.cells.written fill slots observations rows observation.factors).map
    (·.getD (Cell.zero _))).set slot _ = _
  rw [Cells.written, Cells.written, List.map_map, List.map_map]
  apply set_map_eq distinct atSlot
  · rw [Function.comp_apply, lookup_take_succ _ here there, unwritten, if_pos rfl]
    rfl
  · intro other _ differ
    rw [Function.comp_apply, lookup_take_succ _ here there,
      if_neg fun same => differ (congrArg Observation.time same), Option.or_none]
    rfl

end Column

theorem Field.written_zero (fill : Option Fill) (slots : List Instant) (names : List String)
    (observations : List Observation) :
    Field.written fill slots names observations 0 = Field.blankSeries fill slots.length names := by
  funext texts source
  rw [written, Column.written_zero]
  rfl

theorem Marks.written_zero (slots : List Instant) (combinations : List (List String))
    (observations : List Observation) :
    Marks.written slots combinations observations 0 =
      List.replicate combinations.length (List.replicate slots.length false) := by
  simp [written, List.map_const']

theorem Marks.get_written {place : RowPlace} (holds : place.Holds slots combinations observation) :
    (Marks.written slots combinations observations rows).get place =
      .ok (decide (observation ∈ observations.take rows)) := by
  simp [Marks.get, Marks.written, holds.slot, holds.combination]

/-- Marking the place of a row. -/
theorem Marks.put_written {place : RowPlace} (slotsOnce : slots.Nodup)
    (combinationsOnce : combinations.Nodup) (holds : place.Holds slots combinations observation)
    (here : observations[rows]? = some observation) :
    (Marks.written slots combinations observations rows).put place =
      Marks.written slots combinations observations (rows + 1) := by
  have grown : observations.take (rows + 1) = observations.take rows ++ [observation] := by
    rw [List.take_add_one, here]
    rfl
  apply modify_map_eq combinationsOnce holds.combination
  · apply set_map_eq slotsOnce holds.slot
    · simp [grown]
    · intro other _ differ
      have apart : (⟨other, observation.factors⟩ : Observation) ≠ observation :=
        fun same => differ (congrArg Observation.time same)
      simp [grown, apart]
  · intro other _ differ
    apply List.map_congr_left
    intro slot _
    have apart : (⟨slot, other⟩ : Observation) ≠ observation :=
      fun same => differ (congrArg Observation.factors same)
    simp [grown, apart]

/-- A row that repeats none before it is written to the columns of its combination. -/
theorem storeValues_row {sources : List Field} {place : RowPlace} (fill : Option Fill)
    (names : List String) (time : Field) (slotsOnce : slots.Nodup) (combinationsOnce : combinations.Nodup)
    (even : ∀ source ∈ sources, source.column.size = observations.length)
    (there : observations[rows]? = some observation)
    (here : place.Holds slots combinations observation)
    (fresh : observation ∉ observations.take rows) :
    storeValues rows place.slot (1 + place.combination * sources.length) sources
        (blocks time combinations sources (Field.written fill slots names observations rows)) =
      .ok (blocks time combinations sources
        (Field.written fill slots names observations (rows + 1))) := by
  apply storeValues_blocks combinationsOnce here.combination
  · intro other differ source member
    rw [Field.written, Field.written, Column.written_other there (even source member) differ]
  · intro source member
    obtain ⟨value, read, changed⟩ :=
      Column.set_written fill slotsOnce there (even source member) fresh here.slot
    exact ⟨value, read, changed, rfl⟩

/-- Writing the rows that are left ends at the first one that repeats an observation, and else writes
all of them. -/
theorem storeRows_eq {sources : List Field} {places : List RowPlace} (fill : Option Fill)
    (names : List String) (time : Field) (slotsOnce : slots.Nodup) (combinationsOnce : combinations.Nodup)
    (even : ∀ source ∈ sources, source.column.size = observations.length)
    (within : rows ≤ observations.length)
    (holds : List.Forall₂ (RowPlace.Holds slots combinations) (observations.drop rows) places) :
    storeRows slots combinations sources rows places
        (Marks.written slots combinations observations rows)
        (blocks time combinations sources (Field.written fill slots names observations rows)) =
      match Observation.firstRepeated? (observations.take rows).reverse rows
        (observations.drop rows) with
      | some (row, observation) =>
        .error (.pivot (.duplicateRow row observation.time observation.factors))
      | none => .ok (Marks.written slots combinations observations observations.length,
          blocks time combinations sources
            (Field.written fill slots names observations observations.length)) := by
  induction places generalizing rows with
  | nil =>
    have none := List.forall₂_nil_right_iff.1 holds
    have all : rows = observations.length := by
      have short := List.drop_eq_nil_iff.1 none
      omega
    subst all
    rw [none]
    rfl
  | cons place rest ih =>
    obtain ⟨observation, later, here, after, split⟩ := List.forall₂_cons_right_iff.1 holds
    have inside : rows < observations.length := by
      by_contra beyond
      rw [List.drop_eq_nil_of_le (Nat.le_of_not_lt beyond)] at split
      cases split
    rw [List.drop_eq_getElem_cons inside] at split
    obtain ⟨rfl, rfl⟩ := List.cons.inj split
    have there := List.getElem?_eq_getElem inside
    rw [storeRows, List.drop_eq_getElem_cons inside, Observation.firstRepeated?, Marks.get_written here]
    by_cases repeated : observations[rows] ∈ observations.take rows
    · have atSlot : slots.getD place.slot Instant.epoch = observations[rows].time := by
        rw [List.getD_eq_getElem?_getD, here.slot, Option.getD_some]
      have atCombination : combinations.getD place.combination [] = observations[rows].factors := by
        rw [List.getD_eq_getElem?_getD, here.combination, Option.getD_some]
      have seen : (observations.take rows).reverse.contains observations[rows] = true := by
        simpa using repeated
      simp only [bind, Except.bind, repeated, decide_true, if_true, atSlot, atCombination, seen]
    · have stored := storeValues_row fill names time slotsOnce combinationsOnce even there here repeated
      have grown : (observations.take (rows + 1)).reverse =
          observations[rows] :: (observations.take rows).reverse := by
        rw [List.take_add_one, there, List.reverse_append]
        rfl
      have next := ih inside after
      rw [grown] at next
      have unseen : (observations.take rows).reverse.contains observations[rows] = false := by
        simpa using repeated
      simp only [bind, Except.bind, repeated, decide_false, Bool.false_eq_true, if_false, stored,
        Marks.put_written slotsOnce combinationsOnce here there, unseen]
      exact next

end Written

/-! ## Cells that are filled -/

/-- Every observed kind has an element for a number. -/
theorem Kind.exists_ofNumber? {kind : Kind} (observed : kind.isObserved = true) (x : Binary64) :
    ∃ element, kind.ofNumber? x = some element := by
  cases kind <;> first | exact ⟨_, rfl⟩ | cases observed

namespace Fill

variable {type : FieldType}

/-- An observed column can be completed, whatever the fill. -/
theorem exists_complete {fill : Option Fill} (observed : type.kind.isObserved = true)
    (cells : List (Option (Cell type))) : ∃ filled, complete fill cells = .ok filled := by
  match fill with
  | none => exact ⟨_, rfl⟩
  | some .null => exact ⟨_, rfl⟩
  | some .previous => exact ⟨_, rfl⟩
  | some (.value x) =>
    obtain ⟨element, found⟩ := Kind.exists_ofNumber? observed x
    refine ⟨⟨cells.map (·.getD (Cell.of element))⟩, ?_⟩
    rw [complete, Fill.cell, found]
    rfl

/-- The cells of a column from one on, where what an absent one becomes depends on those before it. -/
def overlay (put : List (Cell type) → Cell type) (before : List (Cell type)) :
    List (Option (Cell type)) → List (Cell type)
  | [] => []
  | content :: rest =>
    content.getD (put before) :: overlay put (before ++ [content.getD (put before)]) rest

theorem overlay_const (cell : Cell type) (before : List (Cell type))
    (cells : List (Option (Cell type))) :
    overlay (fun _ => cell) before cells = cells.map (·.getD cell) := by
  induction cells generalizing before with
  | nil => rfl
  | cons content rest ih => rw [overlay, ih, List.map_cons]

theorem overlay_last (blank : Cell type) (before : List (Cell type))
    (cells : List (Option (Cell type))) :
    overlay (fun before => before.getLastD blank) before cells =
      repeating (before.getLastD blank) cells := by
  induction cells generalizing before with
  | nil => rfl
  | cons content rest ih => rw [overlay, ih, repeating, List.getLastD_concat]

/-- Going over the slots of a column changes the cells without a mark, each after those before it. -/
theorem fillSlots_eq {fill : Fill} {fixed : Option Value} {blank : Cell type}
    {put : List (Cell type) → Cell type}
    (step : ∀ before after, fill.fillSlot fixed before.length ⟨type, ⟨before ++ blank :: after⟩⟩ =
      .ok ⟨type, ⟨before ++ put before :: after⟩⟩)
    (before : List (Cell type)) (cells : List (Option (Cell type))) :
    fill.fillSlots fixed before.length (cells.map Option.isSome)
        ⟨type, ⟨before ++ cells.map (·.getD blank)⟩⟩ =
      .ok ⟨type, ⟨before ++ overlay put before cells⟩⟩ := by
  induction cells generalizing before with
  | nil => rfl
  | cons content rest ih =>
    have later := ih (before ++ [content.getD (put before)])
    rw [List.length_append, List.length_singleton, List.append_assoc, List.append_assoc] at later
    rw [List.map_cons, List.map_cons, overlay, fillSlots]
    cases content with
    | some cell => exact later
    | none =>
      rw [if_neg (by simp)]
      exact bind_eq_ok_iff.2 ⟨_, step before _, later⟩

/-- A cell put in the middle of a column. -/
theorem set_middle {value : Value} {cell : Cell type} (made : Cell.ofValue type value = .ok cell)
    (before : List (Cell type)) (blank : Cell type) (after : List (Cell type)) :
    Column.set ⟨type, ⟨before ++ blank :: after⟩⟩ before.length value =
      .ok ⟨type, ⟨before ++ cell :: after⟩⟩ := by
  have inside : Column.checkIndex before.length
      (Column.size ⟨type, ⟨before ++ blank :: after⟩⟩) = .ok () := by
    rw [Column.checkIndex, if_pos]
    simp [Column.size, Cells.size]
  refine bind_eq_ok_iff.2 ⟨(), inside, bind_eq_ok_iff.2 ⟨cell, made, ?_⟩⟩
  rw [List.set_append_right _ _ (Nat.le_refl _), Nat.sub_self, List.set_cons_zero]
  rfl

/-- The slot before is copied, if there is one. -/
theorem fillSlot_previous (before after : List (Cell type)) :
    Fill.previous.fillSlot none before.length ⟨type, ⟨before ++ Cell.zero type :: after⟩⟩ =
      .ok ⟨type, ⟨before ++ before.getLastD (Cell.zero type) :: after⟩⟩ := by
  rcases List.eq_nil_or_concat' before with rfl | ⟨earlier, last, rfl⟩
  · rfl
  · have read : Column.get ⟨type, ⟨(earlier ++ [last]) ++ Cell.zero type :: after⟩⟩
        earlier.length = .ok last.value := by
      simp [Column.get, Column.get?, Cells.get?]
    have stored := set_middle (Cell.ofValue_value last) (earlier ++ [last]) (Cell.zero type) after
    rw [fillSlot, if_neg (by simp), List.length_append, List.length_singleton, Nat.add_sub_cancel,
      List.getLastD_concat]
    rw [List.length_append, List.length_singleton] at stored
    exact bind_eq_ok_iff.2 ⟨_, read, stored⟩

/-- Filling the slots without a mark completes the cells of a column. -/
theorem fillColumn_eq {fill : Fill} {cells : List (Option (Cell type))} {filled : Cells type}
    (completed : complete (some fill) cells = .ok filled) :
    fill.fillColumn (cells.map Option.isSome) ⟨type, ⟨cells.map (·.getD (Cell.zero type))⟩⟩ =
      .ok ⟨type, filled⟩ := by
  obtain ⟨absent, known, completed⟩ := bind_eq_ok_iff.1 completed
  cases fill with
  | null =>
    cases known
    cases completed
    have step : ∀ before after : List (Cell type),
        Fill.null.fillSlot none before.length ⟨type, ⟨before ++ Cell.zero type :: after⟩⟩ =
          .ok ⟨type, ⟨before ++ Cell.zero type :: after⟩⟩ := fun _ _ => rfl
    have filled := fillSlots_eq step [] cells
    rw [overlay_const] at filled
    exact filled
  | previous =>
    cases known
    cases completed
    have filled := fillSlots_eq fillSlot_previous [] cells
    rw [overlay_last] at filled
    exact filled
  | value x =>
    rw [Fill.cell] at known
    split at known
    next element found =>
      cases known
      cases completed
      have given : (valueOf type x).map some = .ok (some (.of type.kind element)) := by
        rw [valueOf, found]
        rfl
      have made : Cell.ofValue type (.of type.kind element) = .ok (Cell.of element) :=
        Cell.ofValue_value (Cell.of element)
      have step : ∀ before after : List (Cell type),
          (Fill.value x).fillSlot (some (.of type.kind element)) before.length
              ⟨type, ⟨before ++ Cell.zero type :: after⟩⟩ =
            .ok ⟨type, ⟨before ++ Cell.of element :: after⟩⟩ := fun before after =>
        set_middle made before (Cell.zero type) after
      have filled := fillSlots_eq step [] cells
      rw [overlay_const] at filled
      exact bind_eq_ok_iff.2 ⟨_, given, filled⟩
    next => cases known

end Fill

/-! ## The whole frame -/

section Whole

variable {fill : Option Fill} {slots : List Instant} {observations : List Observation}
variable {names texts : List String} {source field : Field}

/-- When all rows have been written, a column has the cells of its whole series. -/
theorem Cells.written_all {type : FieldType} (cells : Cells type) :
    cells.written fill slots observations observations.length texts =
      (cells.ofSeries slots observations texts).map (Option.map (Cell.forFill fill)) := by
  have all : (observations.zip cells.toList).take observations.length =
      observations.zip cells.toList := by
    apply List.take_of_length_le
    rw [List.length_zip]
    exact Nat.min_le_left ..
  rw [written, ofSeries, List.map_map, all]
  rfl

/-- The marks of a combination say which cells of its columns have been written. -/
theorem Cells.isSome_written {type : FieldType} {cells : Cells type}
    (even : cells.size = observations.length) :
    (cells.written fill slots observations observations.length texts).map Option.isSome =
      slots.map fun slot => decide ((⟨slot, texts⟩ : Observation) ∈ observations) := by
  rw [written_all, ofSeries, List.map_map, List.map_map]
  apply List.map_congr_left
  intro slot _
  rw [Function.comp_apply, Function.comp_apply, Option.isSome_map, Bool.eq_iff_iff,
    decide_eq_true_iff, List.lookup_isSome_iff]
  constructor
  · rintro ⟨pair, member, same⟩
    rw [eq_of_beq same]
    exact (List.of_mem_zip member).1
  · intro member
    have keys : (observations.zip cells.toList).map Prod.fst = observations :=
      List.map_fst_zip (Nat.le_of_eq even.symm)
    rw [← keys] at member
    obtain ⟨pair, inPairs, same⟩ := List.mem_map.1 member
    exact ⟨pair, inPairs, beq_iff_eq.2 same.symm⟩

/-- Without a fill a series is complete when all rows have been written. -/
theorem Field.ofSeries_none (source : Field) :
    source.ofSeries none slots observations names texts =
      .ok (source.written none slots names observations observations.length texts) := by
  rw [written, Column.written, Cells.written_all]
  rfl

/-- The fill completes a series of which all rows have been written. -/
theorem Field.written_becomes_ofSeries {fill : Fill} (even : source.column.size = observations.length)
    (made : source.ofSeries (some fill) slots observations names texts = .ok field) :
    (source.written (some fill) slots names observations observations.length texts).Becomes
      (fill.fillColumn (slots.map fun slot => decide (⟨slot, texts⟩ ∈ observations))) field := by
  obtain ⟨filled, completed, made⟩ := bind_eq_ok_iff.1 made
  cases made
  have whole : Fill.complete (some fill)
      (source.column.cells.written (some fill) slots observations observations.length texts) =
        .ok filled := by
    rw [Cells.written_all]
    exact completed
  have changed := Fill.fillColumn_eq whole
  rw [Cells.isSome_written even] at changed
  exact ⟨changed, rfl⟩

theorem Field.exists_ofSeries (fill : Option Fill) (slots : List Instant)
    (observations : List Observation) (names texts : List String)
    (observed : source.type.kind.isObserved = true) :
    ∃ field, source.ofSeries fill slots observations names texts = .ok field := by
  have kind : (Fill.columnType fill source.type).kind.isObserved = true := by
    rw [Fill.columnType_eq]
    split <;> exact observed
  obtain ⟨filled, completed⟩ := Fill.exists_complete kind
    ((source.column.cells.ofSeries slots observations texts).map (Option.map (Cell.forFill fill)))
  exact ⟨_, bind_eq_ok_iff.2 ⟨filled, completed, rfl⟩⟩

/-- Without a fill, the columns with all rows written are the series. -/
theorem map_written_none {sources : List Field} {new : Field → Field}
    (made : ∀ source ∈ sources,
      source.ofSeries none slots observations names texts = .ok (new source)) :
    sources.map (Field.written none slots names observations observations.length texts) =
      sources.map new := by
  apply List.map_congr_left
  intro source member
  have here := made source member
  rw [Field.ofSeries_none] at here
  exact Except.ok.inj here

/-- The series of all combinations, block by block. -/
theorem mapM_ofSeries {sources : List Field} {new : List String → Field → Field}
    (combinations : List (List String))
    (made : ∀ texts : List String, ∀ source ∈ sources,
      source.ofSeries fill slots observations names texts = .ok (new texts source)) :
    ((combinations.flatMap fun factors => sources.map fun source => (factors, source)).mapM
        fun (factors, source) => Field.ofSeries fill slots observations names factors source) =
      .ok (combinations.flatMap fun texts => sources.map (new texts)) := by
  have each : (combinations.flatMap fun texts => sources.map (new texts)) =
      (combinations.flatMap fun factors => sources.map fun source => (factors, source)).map
        fun origin => new origin.1 origin.2 := by
    simp [List.map_flatMap, Function.comp_def]
  rw [each, mapM_eq_ok_iff, List.forall₂_map_right_iff, List.forall₂_same]
  intro origin member
  exact made origin.1 origin.2 (List.mem_product.1 member).2

end Whole

namespace Frame

variable {frame : Frame} {time : Field} {rows : Nat} {times : List Instant}

/-- The rows of a frame are placed by its instants and its combinations of texts. -/
theorem placeRows_frame (counted : frame.rowCount = .ok rows) (series : frame.IsSeries time)
    (read : time.times = .ok times) :
    ∃ places met, placeRows frame.factorFields (Instant.distinct times) 0 times {} =
        .ok (places, met) ∧
      met.inOrder = Observation.series (frame.observations times) ∧
      List.Forall₂ (RowPlace.Holds (Instant.distinct times) met.inOrder) (frame.observations times)
        places := by
  have inside : ∀ field ∈ frame.factorFields, 0 + times.length ≤ field.column.size := by
    intro field member
    rw [length_times counted series read, Nat.zero_add]
    exact Nat.le_of_eq ((rowCount_eq_ok_iff.1 counted).2 field (List.mem_filter.1 member).1).symm
  obtain ⟨places, met, placed, numbers, -, holds⟩ := placeRows_spec
    (Instant.distinct_ascending times) (fun _ => Instant.mem_distinct.2) inside
    Combinations.numbers_none
  rw [fromRow_zero counted series read] at numbers holds
  exact ⟨places, met, placed, numbers.inOrder, holds⟩

/-- An observed field has a cell for each observation. -/
theorem size_eq_length_observations (counted : frame.rowCount = .ok rows)
    (series : frame.IsSeries time) (read : time.times = .ok times) {source : Field}
    (member : source ∈ frame.valueFields) :
    source.column.size = (frame.observations times).length := by
  rw [(rowCount_eq_ok_iff.1 counted).2 source (List.mem_filter.1 member).1,
    ← fromRow_zero counted series read, Observation.fromRow, List.length_map, List.length_zipIdx,
    length_times counted series read]

/-- The series of each combination and observed field can be made. -/
theorem exists_ofSeries (frame : Frame) (fill : Option Fill) (slots : List Instant)
    (observations : List Observation) (names : List String) :
    ∃ new : List String → Field → Field, ∀ texts : List String, ∀ source ∈ frame.valueFields,
      source.ofSeries fill slots observations names texts = .ok (new texts source) := by
  have made : ∀ texts : List String, ∀ source ∈ frame.valueFields, ∃ field,
      source.ofSeries fill slots observations names texts = .ok field := by
    intro texts source member
    exact Field.exists_ofSeries fill _ _ _ texts (List.mem_filter.1 member).2
  choose! new made using made
  exact ⟨new, made⟩

/-- The fields that are written and filled are the series of the observations, unless two rows are one
observation. -/
theorem scatterFields_eq (counted : frame.rowCount = .ok rows) (series : frame.IsSeries time)
    (read : time.times = .ok times) (fill : Option Fill) :
    scatterFields fill time times frame.factorFields frame.valueFields =
      match Observation.firstRepeated? [] 0 (frame.observations times) with
      | some (row, observation) =>
        .error (.pivot (.duplicateRow row observation.time observation.factors))
      | none =>
        (((Observation.series (frame.observations times)).flatMap fun factors =>
          frame.valueFields.map fun source => (factors, source)).mapM fun (factors, source) =>
            Field.ofSeries fill (Instant.distinct times) (frame.observations times)
              (frame.factorFields.map Field.name) factors source).map
          (time.ofSlots (Instant.distinct times) :: ·) := by
  obtain ⟨places, met, placed, inOrder, holds⟩ := placeRows_frame counted series read
  have even : ∀ source ∈ frame.valueFields,
      source.column.size = (frame.observations times).length :=
    fun source => size_eq_length_observations counted series read
  obtain ⟨new, made⟩ := frame.exists_ofSeries fill (Instant.distinct times)
    (frame.observations times) (frame.factorFields.map Field.name)
  rw [inOrder] at holds
  have slotsOnce : (Instant.distinct times).Nodup :=
    (Instant.distinct_ascending times).imp Instant.ne_of_before
  have stored := storeRows_eq fill (frame.factorFields.map Field.name)
    (time.ofSlots (Instant.distinct times)) slotsOnce (nodup_eraseDups _) even (Nat.zero_le _) holds
  rw [Marks.written_zero, Field.written_zero, blocks] at stored
  rw [scatterFields, placed]
  simp only [bind, Except.bind, inOrder, Observation.series] at stored ⊢
  rw [stored]
  simp only [List.take_zero, List.reverse_nil, List.drop_zero]
  cases Observation.firstRepeated? [] 0 (frame.observations times) with
  | some repeated => rfl
  | none =>
    have whole := mapM_ofSeries (Observation.series (frame.observations times)) made
    rw [Observation.series] at whole
    simp only [whole, Except.map]
    cases fill with
    | none =>
      have same := fun texts => map_written_none (made texts)
      simp only [blocks, same]
      rfl
    | some fill =>
      have filled := fillAll_eq (time.ofSlots (Instant.distinct times)) []
        ((frame.observations times).map Observation.factors).eraseDups
        fun texts _ source member =>
          Field.written_becomes_ofSeries (even source member) (made texts source member)
      simpa [Marks.written, blocks] using filled

/-- A frame is made wide cell by cell as it is made wide as a whole. -/
theorem scatter_eq_longToWide (frame : Frame) (fill : Option Fill) :
    frame.scatter fill = frame.longToWide fill := by
  unfold scatter longToWide
  dsimp only
  by_cases layout : frame.seriesRoles.kind = .long
  · obtain ⟨time, series⟩ := isSeries_of_kind (by rw [layout]; nofun)
    obtain ⟨-, timeField, factors, values⟩ := seriesRead_of_isSeries series
    rw [if_neg (not_not.2 layout), if_neg (not_not.2 layout), timeField, factors, values]
    simp only [bind, Except.bind]
    cases counted : frame.rowCount with
    | error error => rfl
    | ok rows =>
      by_cases none : rows = 0
      · simp only [none, if_true]
      · simp only [none, if_false]
        cases read : time.times with
        | error error => rfl
        | ok times =>
          dsimp only
          rw [scatterFields_eq counted series read, observations]
          cases Observation.firstRepeated? [] 0
              (Observation.ofColumns times (frame.factorFields.map Field.column)) with
          | some repeated => rfl
          | none =>
            dsimp only
            generalize List.mapM (m := Except Error) _ _ = series
            cases series <;> rfl
  · rw [if_pos layout, if_pos layout]

end Frame

end Columnar
