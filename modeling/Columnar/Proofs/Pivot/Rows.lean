import Columnar.Pivot.Wide
import Columnar.Proofs.Collections
import Columnar.Proofs.TimeSeries

/-! What stands in the rows of a frame: an instant, the texts of the factors and the values. Two
rows of a long frame that agree on instant and texts would be one observation made twice. -/
namespace Columnar

/-- No length is the first one that differs when all of them are the same. -/
theorem firstUneven?_eq_none {expected position : Nat} {lengths : List Nat} :
    firstUneven? expected position lengths = none ↔ ∀ length ∈ lengths, length = expected := by
  induction lengths generalizing position with
  | nil => simp [firstUneven?]
  | cons length rest ih =>
    by_cases same : length = expected
    · simp [firstUneven?, same, ih]
    · simp [firstUneven?, same]

namespace Column

theorem get?_eq_values (column : Column) (row : Nat) : column.get? row = column.values[row]? := by
  simp [get?, Cells.get?, values, Cells.values]

theorem length_values (column : Column) : column.values.length = column.size := by
  simp [values, Cells.values, size, Cells.size]

/-- The text of a cell; an empty cell has an empty one. -/
def textAt (column : Column) (row : Nat) : String := ((column.get? row).getD .null).text

/-- Row by row, the texts of the columns. -/
theorem textRows_eq (rows : Nat) (columns : List Column)
    (even : ∀ column ∈ columns, column.size = rows) :
    textRows rows columns = (List.range rows).map fun row => columns.map (·.textAt row) := by
  induction columns with
  | nil => simp [textRows, List.map_const']
  | cons column rest ih =>
    have here : column.values.length = rows := by rw [length_values, even column (by simp)]
    rw [textRows, ih fun other member => even other (by simp [member])]
    apply List.ext_getElem
    · simp [here]
    · intro row first second
      have inside : row < column.values.length := by
        rw [here]
        simpa using second
      simp [textAt, get?_eq_values, inside]

end Column

namespace Field

/-- A field of times holds nothing but times, and no null among them. -/
theorem timesFrom_eq_ok_iff {field : Field} {row : Nat} {values : List Value}
    {times : List Instant} :
    field.timesFrom row values = .ok times ↔ values = times.map (Value.of .time) := by
  fun_induction timesFrom field row values generalizing times with
  | case1 =>
    rw [Except.ok.injEq]
    exact ⟨fun none => by rw [← none, List.map_nil],
      fun none => (List.map_eq_nil_iff.1 none.symm).symm⟩
  | case2 row t rest ih =>
    constructor
    · intro read
      cases inner : field.timesFrom (row + 1) rest with
      | error fault =>
        rw [inner] at read
        cases read
      | ok later =>
        rw [inner] at read
        cases read
        rw [List.map_cons, ih.1 inner]
    · intro times
      obtain ⟨t', later, rfl, first, others⟩ := List.map_eq_cons_iff.1 times.symm
      cases first
      rw [ih.2 others.symm]
      rfl
  | case3 row value rest notTime =>
    refine ⟨nofun, fun times => ?_⟩
    obtain ⟨t, later, rfl, first, others⟩ := List.map_eq_cons_iff.1 times.symm
    exact absurd first.symm (notTime t)

theorem times_eq_ok_iff {field : Field} {times : List Instant} :
    field.times = .ok times ↔ field.column.values = times.map (Value.of .time) :=
  timesFrom_eq_ok_iff

end Field

namespace Frame

variable {frame : Frame} {rows : Nat}

/-- A frame has rows when it has fields and all of them are of one length. -/
theorem rowCount_eq_ok_iff :
    frame.rowCount = .ok rows ↔
      frame.fields ≠ [] ∧ ∀ field ∈ frame.fields, field.column.size = rows := by
  unfold rowCount
  split
  next none => simp [none]
  next first rest some =>
    split
    next even =>
      rw [firstUneven?_eq_none] at even
      have same : ∀ field ∈ rest, field.column.size = first.column.size := by
        intro field member
        exact even _ (List.mem_map_of_mem member)
      constructor
      · intro counted
        cases counted
        refine ⟨by simp [some], fun field member => ?_⟩
        rw [some] at member
        rcases List.mem_cons.1 member with rfl | member
        · rfl
        · exact same field member
      · rintro ⟨-, all⟩
        exact congrArg Except.ok (all first (by simp [some]))
    next error uneven =>
      refine ⟨nofun, fun ⟨_, all⟩ => ?_⟩
      have even : firstUneven? first.size 1 (rest.map Field.size) = none := by
        rw [firstUneven?_eq_none]
        intro length member
        obtain ⟨field, inRest, rfl⟩ := List.mem_map.1 member
        exact (all field (by simp [some, inRest])).trans (all first (by simp [some])).symm
      rw [even] at uneven
      cases uneven

/-- The instant of a row. -/
def timeAt? (frame : Frame) (row : Nat) : Option Instant :=
  frame.timeFields.head?.bind fun field => (field.column.get? row).bind Value.time?

/-- The texts of the factors in a row. -/
def factorsAt (frame : Frame) (row : Nat) : List String :=
  frame.factorFields.map (·.column.textAt row)

/-- What tells a row from the others. -/
def observationAt? (frame : Frame) (row : Nat) : Option Observation :=
  (frame.timeAt? row).map fun time => ⟨time, frame.factorsAt row⟩

/-- The value of a row under the name of an observed field. -/
def valueAt? (frame : Frame) (name : String) (row : Nat) : Option Value :=
  (frame.valueFields.find? (·.name == name)).bind (·.column.get? row)

/-- The value of a row under the name of a factor. -/
def factorAt? (frame : Frame) (name : String) (row : Nat) : Option Value :=
  (frame.factorFields.find? (·.name == name)).bind (·.column.get? row)

section Observed

variable {time : Field} {times : List Instant}

/-- The instants that are read are those of the rows. -/
theorem timeAt?_eq (series : frame.IsSeries time) (read : time.times = .ok times) (row : Nat) :
    frame.timeAt? row = times[row]? := by
  rw [timeAt?, series.time, List.head?_cons, Option.bind_some, Column.get?_eq_values,
    Field.times_eq_ok_iff.1 read, List.getElem?_map]
  cases times[row]? <;> rfl

theorem length_times (counted : frame.rowCount = .ok rows) (series : frame.IsSeries time)
    (read : time.times = .ok times) : times.length = rows := by
  have member : time ∈ frame.fields := by
    have inTimes : time ∈ frame.timeFields := by simp [series.time]
    exact (List.mem_filter.1 inTimes).1
  have size := (rowCount_eq_ok_iff.1 counted).2 time member
  have values := congrArg List.length (Field.times_eq_ok_iff.1 read)
  rw [Column.length_values, size, List.length_map] at values
  exact values.symm

/-- The observations of a frame: row by row, an instant and the texts of the factors. -/
def observations (frame : Frame) (times : List Instant) : List Observation :=
  Observation.ofColumns times (frame.factorFields.map Field.column)

theorem observations_eq (counted : frame.rowCount = .ok rows) (series : frame.IsSeries time)
    (read : time.times = .ok times) :
    frame.observations times =
      List.zipWith Observation.mk times ((List.range rows).map frame.factorsAt) := by
  have even : ∀ column ∈ frame.factorFields.map Field.column, column.size = times.length := by
    intro column member
    obtain ⟨field, isFactor, rfl⟩ := List.mem_map.1 member
    rw [length_times counted series read]
    exact (rowCount_eq_ok_iff.1 counted).2 field (List.mem_filter.1 isFactor).1
  rw [observations, Observation.ofColumns, Column.textRows_eq _ _ even,
    length_times counted series read]
  congr 2
  funext row
  simp [factorsAt, Function.comp_def]

theorem observations_getElem? (counted : frame.rowCount = .ok rows) (series : frame.IsSeries time)
    (read : time.times = .ok times) (row : Nat) :
    (frame.observations times)[row]? = frame.observationAt? row := by
  rw [observations_eq counted series read, observationAt?, timeAt?_eq series read,
    List.getElem?_zipWith]
  by_cases inside : row < rows
  · have there : row < times.length := by rwa [length_times counted series read]
    simp [inside, there]
  · have beyond : times.length ≤ row := by
      rw [length_times counted series read]
      omega
    simp [beyond, inside]

/-- The texts of the factors, row by row. -/
theorem factors_observations (counted : frame.rowCount = .ok rows) (series : frame.IsSeries time)
    (read : time.times = .ok times) :
    (frame.observations times).map Observation.factors =
      (List.range rows).map frame.factorsAt := by
  rw [observations_eq counted series read, List.map_zipWith]
  apply List.ext_getElem?
  intro row
  rw [List.getElem?_zipWith]
  by_cases inside : row < rows
  · have there : row < times.length := by rwa [length_times counted series read]
    simp [inside, there]
  · simp [inside]

theorem row_lt (counted : frame.rowCount = .ok rows) (series : frame.IsSeries time)
    (read : time.times = .ok times) {row : Nat} {instant : Instant}
    (here : frame.timeAt? row = some instant) : row < rows := by
  rw [timeAt?_eq series read] at here
  rw [← length_times counted series read]
  exact (List.getElem?_eq_some_iff.1 here).1

end Observed

end Frame

namespace Observation

theorem firstRepeated?_eq_none {seen observations : List Observation} {row : Nat} :
    firstRepeated? seen row observations = none ↔
      observations.Nodup ∧ ∀ observation ∈ observations, observation ∉ seen := by
  induction observations generalizing seen row with
  | nil => simp [firstRepeated?]
  | cons first rest ih =>
    by_cases repeated : first ∈ seen
    · simp [firstRepeated?, repeated]
    · simp only [firstRepeated?, List.contains_iff_mem, repeated, if_false, ih, List.nodup_cons,
        List.mem_cons, not_or, forall_eq_or_imp]
      constructor
      · rintro ⟨distinct, others⟩
        exact ⟨⟨fun again => (others first again).1 rfl, distinct⟩, not_false,
          fun later member => (others later member).2⟩
      · rintro ⟨⟨once, distinct⟩, -, unseen⟩
        exact ⟨distinct, fun later member => ⟨fun same => once (same ▸ member), unseen later member⟩⟩

end Observation

end Columnar
