import Columnar.Proofs.Columns
import Columnar.Proofs.Pivot.Scattering

/-! What stands in a wide frame where the long one has no row. The fill decides: the blank value of the
type, null, a number, or the value of the latest row before; copying from slot to slot carries that
value over every gap, and a null is carried as any other value. -/
namespace Columnar.Frame

section Series

variable {long : Frame} {slots : List Instant} {factors : List String} {source field : Field}
variable {slot : Nat}

/-- A row of a frame that has the instant of a slot and the texts of a combination. -/
def RowAt (long : Frame) (slots : List Instant) (factors : List String) (slot row : Nat) : Prop :=
  ∃ time, slots[slot]? = some time ∧ long.timeAt? row = some time ∧ long.factorsAt row = factors

/-- The source has a value in the row of a slot, and no slot between that one and a later one has a
row. -/
structure LatestAt (long : Frame) (slots : List Instant) (factors : List String) (source : Field)
    (slot earlier : Nat) (value : Value) : Prop where
  below : earlier < slot
  row : ∃ row, long.RowAt slots factors earlier row ∧ source.column.get? row = some value
  gap : ∀ between, earlier < between → between < slot → ∀ row, ¬long.RowAt slots factors between row

/-- What the fill puts into a slot of a series without a row. -/
def Puts (long : Frame) (slots : List Instant) (factors : List String) (source : Field) (slot : Nat) :
    Option Fill → Value → Prop
  | none, value => value = source.type.blank
  | some .null, value => value = .null
  | some (.value x), value => Fill.valueOf source.type x = .ok value
  | some .previous, value =>
    (∃ earlier, long.LatestAt slots factors source slot earlier value) ∨
      (∀ earlier < slot, ∀ row, ¬long.RowAt slots factors earlier row) ∧ value = source.type.blank

/-- A slot with a row shows what the source has in it. -/
theorem get?_of_rowAt {fill : Option Fill} (series : long.SeriesOf fill slots factors source field)
    {row : Nat} (here : long.RowAt slots factors slot row) :
    field.column.get? slot = source.column.get? row := by
  obtain ⟨time, atSlot, atRow, texts⟩ := here
  exact series.present row slot time atRow texts atSlot

/-- A slot without a row is filled from the slot before it. -/
theorem get?_of_absent {fill : Option Fill} (series : long.SeriesOf fill slots factors source field)
    (inside : slot < slots.length) (absent : ∀ row, ¬long.RowAt slots factors slot row) :
    field.column.get? slot = Fill.absentValue? fill source.type
      (if slot = 0 then none else field.column.get? (slot - 1)) := by
  have atSlot := List.getElem?_eq_getElem inside
  exact series.absent slot _ atSlot fun row atRow texts => absent row ⟨_, atSlot, atRow, texts⟩

/-- The value of the latest row is carried over one slot more. -/
theorem puts_previous_succ {value : Value}
    (absent : ∀ row, ¬long.RowAt slots factors slot row)
    (before : long.Puts slots factors source slot (some .previous) value) :
    long.Puts slots factors source (slot + 1) (some .previous) value := by
  rcases before with ⟨earlier, latest⟩ | ⟨none, blank⟩
  · refine .inl ⟨earlier, Nat.lt_succ_of_lt latest.below, latest.row, fun between after below => ?_⟩
    rcases Nat.lt_succ_iff_lt_or_eq.1 below with below | same
    · exact latest.gap between after below
    · exact same ▸ absent
  · refine .inr ⟨fun earlier below => ?_, blank⟩
    rcases Nat.lt_succ_iff_lt_or_eq.1 below with below | same
    · exact none earlier below
    · exact same ▸ absent

/-- Copying the slot before, over and over, puts the value of the latest row. -/
theorem puts_previous (series : long.SeriesOf (some .previous) slots factors source field)
    (inside : slot < slots.length) (absent : ∀ row, ¬long.RowAt slots factors slot row) :
    ∃ value, field.column.get? slot = some value ∧
      long.Puts slots factors source slot (some .previous) value := by
  induction slot with
  | zero =>
    refine ⟨source.type.blank, ?_, .inr ⟨fun earlier below => ?_, rfl⟩⟩
    · rw [get?_of_absent series inside absent, ← Cell.value_zero]
      rfl
    · exact absurd below (Nat.not_lt_zero _)
  | succ slot ih =>
    have before := Nat.lt_of_succ_lt inside
    have copied := get?_of_absent series inside absent
    rw [if_neg (Nat.succ_ne_zero _), Nat.add_sub_cancel] at copied
    by_cases present : ∃ row, long.RowAt slots factors slot row
    · obtain ⟨row, here⟩ := present
      have bound : slot < field.column.values.length := by
        rw [Column.length_values, series.size]
        exact before
      have shown := List.getElem?_eq_getElem bound
      rw [← Column.get?_eq_values] at shown
      have given := get?_of_rowAt series here
      rw [shown] at given copied
      refine ⟨_, copied, .inl ⟨slot, Nat.lt_succ_self _, ⟨row, here, given.symm⟩, ?_⟩⟩
      intro between after below
      omega
    · have gap : ∀ row, ¬long.RowAt slots factors slot row := not_exists.1 present
      obtain ⟨value, shown, puts⟩ := ih before gap
      rw [shown] at copied
      exact ⟨value, copied, puts_previous_succ gap puts⟩

/-- A slot of a series without a row holds what the fill puts there. -/
theorem puts_of_absent {fill : Option Fill} (series : long.SeriesOf fill slots factors source field)
    (observed : source.type.kind.isObserved = true) (inside : slot < slots.length)
    (absent : ∀ row, ¬long.RowAt slots factors slot row) :
    ∃ value, field.column.get? slot = some value ∧
      long.Puts slots factors source slot fill value := by
  match fill with
  | none =>
    refine ⟨source.type.blank, ?_, rfl⟩
    rw [get?_of_absent series inside absent, ← Cell.value_zero]
    rfl
  | some .null => exact ⟨.null, get?_of_absent series inside absent, rfl⟩
  | some (.value x) =>
    obtain ⟨element, found⟩ := Kind.exists_ofNumber? observed x
    refine ⟨.of source.type.kind element, ?_, ?_⟩
    · rw [get?_of_absent series inside absent, Fill.absentValue?, found]
      rfl
    · rw [Puts, Fill.valueOf, found]
  | some .previous => exact puts_previous series inside absent

end Series

variable {long wide : Frame} {fill : Option Fill}

/-- A frame that is made wide has, for every combination and every observed field, a column in which
each slot without a row holds what the fill puts there. -/
theorem scatter_fills (pivoted : long.scatter fill = .ok wide) :
    long.longToWide fill = .ok wide ∧
    ∃ rows slots combinations, long.WideOf fill rows slots combinations wide ∧
      ∀ combination factors, combinations[combination]? = some factors →
      ∀ index source, long.valueFields[index]? = some source →
      ∃ field, wide.fields[1 + combination * long.valueFields.length + index]? = some field ∧
        ∀ slot < slots.length, (∀ row, ¬long.RowAt slots factors slot row) →
        ∃ value, field.column.get? slot = some value ∧
          long.Puts slots factors source slot fill value := by
  rw [scatter_eq_longToWide] at pivoted
  obtain ⟨rows, slots, combinations, wideOf⟩ := longToWide_wideOf pivoted
  refine ⟨pivoted, rows, slots, combinations, wideOf, ?_⟩
  intro combination factors atCombination index source atIndex
  obtain ⟨_, time, series, -, fields, -, -, -, -, -, -, columns⟩ := wideOf.fields
  obtain ⟨inside, here⟩ := List.getElem?_eq_some_iff.1 atIndex
  have origin := getElem?_flatMap_map combinations long.valueFields
    (fun factors source => (factors, source)) combination inside
  rw [atCombination, here] at origin
  obtain ⟨field, atField, isSeries⟩ := getElem?_of_forall₂ columns origin
  refine ⟨field, ?_, fun slot below absent => ?_⟩
  · rw [fields, Nat.add_assoc, Nat.add_comm 1, List.getElem?_cons_succ]
    exact atField
  · have observed := (List.mem_filter.1 (List.mem_of_getElem? atIndex)).2
    exact puts_of_absent isSeries observed below absent

theorem scatter_fills_hostReadings :
    ∃ wide, hostReadings.scatter (some .previous) = .ok wide ∧
      hostReadings.longToWide (some .previous) = .ok wide ∧
      ∃ rows slots combinations,
        hostReadings.WideOf (some .previous) rows slots combinations wide ∧
        ∀ combination factors, combinations[combination]? = some factors →
        ∀ index source, hostReadings.valueFields[index]? = some source →
        ∃ field, wide.fields[1 + combination * hostReadings.valueFields.length + index]? =
            some field ∧
          ∀ slot < slots.length, (∀ row, ¬hostReadings.RowAt slots factors slot row) →
          ∃ value, field.column.get? slot = some value ∧
            hostReadings.Puts slots factors source slot (some .previous) value := by
  have accepted : ∃ wide, hostReadings.longToWide (some .previous) = .ok wide := ⟨_, rfl⟩
  obtain ⟨wide, pivoted⟩ := accepted
  rw [← scatter_eq_longToWide] at pivoted
  exact ⟨wide, pivoted, scatter_fills pivoted⟩

end Columnar.Frame
