import Columnar.Proofs.Frame.Ragged
import Columnar.Proofs.Pivot.Scattering

/-! Which frames can be made wide, and why others cannot. A frame is refused before any cell is written
or when two rows turn out to be one observation; the cells themselves and the fill are never in the
way. -/
namespace Columnar

/-! ## The first null and the first repeated row -/

namespace Field

variable {field : Field} {times : List Instant} {error : Error}

/-- The cells of a field of times hold a time or nothing. -/
theorem time_or_null (isTime : field.type.kind = .time) {value : Value}
    (member : value ∈ field.column.values) : value = .null ∨ ∃ t, value = .of .time t := by
  obtain ⟨name, labels, config, ⟨⟨kind, nullable⟩, cells⟩⟩ := field
  cases isTime
  obtain ⟨⟨content, present⟩, -, rfl⟩ := List.mem_map.1 member
  cases content with
  | none => exact .inl rfl
  | some t => exact .inr ⟨t, rfl⟩

theorem timesFrom_eq_error_iff {values : List Value} {start : Nat}
    (known : ∀ value ∈ values, value = .null ∨ ∃ t, value = .of .time t) :
    field.timesFrom start values = .error error ↔
      ∃ row, values[row]? = some .null ∧ (∀ earlier < row, values[earlier]? ≠ some .null) ∧
        error = .pivot (.nullTime field.name (start + row)) := by
  fun_induction timesFrom field start values with
  | case1 => simp
  | case2 start t rest ih =>
    have later := ih fun value member => known value (by simp [member])
    have mapped : (field.timesFrom (start + 1) rest).map (t :: ·) = .error error ↔
        field.timesFrom (start + 1) rest = .error error := by
      cases field.timesFrom (start + 1) rest <;> simp [Except.map]
    rw [mapped, later]
    constructor
    · rintro ⟨row, here, before, reported⟩
      refine ⟨row + 1, here, fun earlier below => ?_, ?_⟩
      · cases earlier with
        | zero => simp
        | succ earlier => exact before earlier (Nat.lt_of_succ_lt_succ below)
      · rw [reported, Nat.add_assoc, Nat.add_comm 1]
    · rintro ⟨row, here, before, reported⟩
      cases row with
      | zero => simp at here
      | succ row =>
        refine ⟨row, here, fun earlier below => before (earlier + 1) (Nat.succ_lt_succ below), ?_⟩
        rw [reported, Nat.add_assoc, Nat.add_comm 1]
  | case3 start value rest notTime =>
    have null : value = .null := by
      rcases known value (by simp) with null | ⟨t, isTime⟩
      · exact null
      · exact absurd isTime (notTime t)
    subst null
    constructor
    · intro failed
      cases failed
      exact ⟨0, rfl, fun _ below => absurd below (Nat.not_lt_zero _), rfl⟩
    · rintro ⟨row, -, before, reported⟩
      cases row with
      | zero => rw [reported]; rfl
      | succ row => exact absurd rfl (before 0 (Nat.succ_pos _))

/-- A null among the times is reported with its first row. -/
theorem times_eq_error_iff (isTime : field.type.kind = .time) :
    field.times = .error error ↔
      ∃ row, field.column.get? row = some .null ∧
        (∀ earlier < row, field.column.get? earlier ≠ some .null) ∧
        error = .pivot (.nullTime field.name row) := by
  rw [times, timesFrom_eq_error_iff fun _ => time_or_null isTime]
  simp only [Column.get?_eq_values, Nat.zero_add]

theorem exists_times_iff (isTime : field.type.kind = .time) :
    (∃ times, field.times = .ok times) ↔ ∀ row, field.column.get? row ≠ some .null := by
  constructor
  · rintro ⟨times, read⟩ row null
    rw [Column.get?_eq_values, times_eq_ok_iff.1 read, List.getElem?_map, Option.map_eq_some_iff] at null
    obtain ⟨t, -, isNull⟩ := null
    cases isNull
  · intro whole
    cases read : field.times with
    | ok times => exact ⟨times, rfl⟩
    | error error =>
      obtain ⟨row, null, -⟩ := (times_eq_error_iff isTime).1 read
      exact absurd null (whole row)

end Field

namespace Observation

/-- The row that is reported is the first one that repeats an earlier one. -/
theorem firstRepeated?_eq_some_iff {seen observations : List Observation} {start row : Nat}
    {observation : Observation} :
    firstRepeated? seen start observations = some (row, observation) ↔
      ∃ index, row = start + index ∧ observations[index]? = some observation ∧
        (observation ∈ seen ∨ observation ∈ observations.take index) ∧
        (observations.take index).Nodup ∧ ∀ earlier ∈ observations.take index, earlier ∉ seen := by
  induction observations generalizing seen start with
  | nil => simp [firstRepeated?]
  | cons first rest ih =>
    by_cases repeated : first ∈ seen
    · rw [firstRepeated?, if_pos (by simpa using repeated), Option.some.injEq, Prod.mk.injEq]
      constructor
      · rintro ⟨rfl, rfl⟩
        refine ⟨0, rfl, rfl, .inl repeated, ?_, ?_⟩
        · rw [List.take_zero]
          exact List.nodup_nil
        · intro earlier member
          cases member
      · rintro ⟨index, rfl, here, -, -, unseen⟩
        cases index with
        | zero => exact ⟨rfl, by simpa using here⟩
        | succ index => exact absurd repeated (unseen first (by simp))
    · rw [firstRepeated?, if_neg (by simpa using repeated), ih]
      constructor
      · rintro ⟨index, rfl, here, again, distinct, unseen⟩
        refine ⟨index + 1, by omega, here, ?_, ?_, ?_⟩
        · rcases again with known | earlier
          · rcases List.mem_cons.1 known with rfl | known
            · exact .inr List.mem_cons_self
            · exact .inl known
          · exact .inr (by simp [earlier])
        · rw [List.take_succ_cons, List.nodup_cons]
          exact ⟨fun member => unseen first member (by simp), distinct⟩
        · intro earlier member
          rcases List.mem_cons.1 member with rfl | member
          · exact repeated
          · exact fun known => unseen earlier member (by simp [known])
      · rintro ⟨index, rfl, here, again, distinct, unseen⟩
        cases index with
        | zero =>
          have same : first = observation := by simpa using here
          subst same
          rcases again with known | earlier
          · exact absurd known repeated
          · cases earlier
        | succ index =>
          rw [List.take_succ_cons] at again distinct unseen
          obtain ⟨once, distinct⟩ := List.nodup_cons.1 distinct
          refine ⟨index, by omega, here, ?_, distinct, fun earlier member known => ?_⟩
          · rcases again with known | earlier
            · exact .inl (by simp [known])
            · rcases List.mem_cons.1 earlier with same | earlier
              · exact .inl (by simp [same])
              · exact .inr earlier
          · rcases List.mem_cons.1 known with rfl | known
            · exact once member
            · exact unseen earlier (by simp [member]) known

end Observation

namespace Frame

variable {frame : Frame} {time : Field} {rows : Nat} {times : List Instant} {error : Error}

/-! ## Frames of one length -/

theorem not_ragged_iff : ¬frame.Ragged ↔ ∀ one ∈ frame.fields, ∀ other ∈ frame.fields,
    one.size = other.size := by
  simp [Ragged]

/-- A frame with fields has rows to count unless it is ragged. -/
theorem exists_rowCount_iff (some : frame.fields ≠ []) :
    (∃ rows, frame.rowCount = .ok rows) ↔ ¬frame.Ragged := by
  rw [not_ragged_iff]
  constructor
  · rintro ⟨rows, counted⟩ one inFields other alsoIn
    have even := (rowCount_eq_ok_iff.1 counted).2
    exact (even one inFields).trans (even other alsoIn).symm
  · intro even
    obtain ⟨first, rest, fields⟩ := List.exists_cons_of_ne_nil some
    refine ⟨first.size, rowCount_eq_ok_iff.2 ⟨some, fun field member => ?_⟩⟩
    exact even field member first (by rw [fields]; exact List.mem_cons_self)

theorem ragged_of_unevenAt {expected position actual : Nat}
    (uneven : frame.UnevenAt expected position actual) : frame.Ragged := by
  have atFirst := uneven.first
  have atPosition := uneven.here
  rw [List.getElem?_map, Option.map_eq_some_iff] at atFirst atPosition
  obtain ⟨one, first, rfl⟩ := atFirst
  obtain ⟨other, here, rfl⟩ := atPosition
  exact ⟨other, List.mem_of_getElem? here, one, List.mem_of_getElem? first, uneven.differs⟩

/-- Where a frame is uneven is determined. -/
theorem unevenAt_unique {expected position actual expected' position' actual' : Nat}
    (one : frame.UnevenAt expected position actual)
    (other : frame.UnevenAt expected' position' actual') :
    expected = expected' ∧ position = position' ∧ actual = actual' := by
  have first : expected = expected' := Option.some.inj (one.first.symm.trans other.first)
  subst first
  have same : position = position' := by
    rcases Nat.lt_trichotomy position position' with less | same | more
    · exact absurd (Option.some.inj (one.here.symm.trans (other.before _ less))) one.differs
    · exact same
    · exact absurd (Option.some.inj (other.here.symm.trans (one.before _ more))) other.differs
  subst same
  exact ⟨rfl, rfl, Option.some.inj (one.here.symm.trans other.here)⟩

theorem rowCount_eq_error_iff (some : frame.fields ≠ []) :
    frame.rowCount = .error error ↔ ∃ expected position actual,
      frame.UnevenAt expected position actual ∧ error = .fieldLengths expected position actual := by
  constructor
  · intro failed
    have ragged : frame.Ragged := by
      by_contra even
      obtain ⟨rows, counted⟩ := (exists_rowCount_iff some).2 even
      rw [counted] at failed
      cases failed
    obtain ⟨expected, position, actual, uneven, reported⟩ := rowCount_of_ragged ragged
    rw [failed] at reported
    exact ⟨expected, position, actual, uneven, Except.error.inj reported⟩
  · rintro ⟨expected, position, actual, uneven, rfl⟩
    obtain ⟨expected', position', actual', uneven', reported⟩ :=
      rowCount_of_ragged (ragged_of_unevenAt uneven)
    obtain ⟨rfl, rfl, rfl⟩ := unevenAt_unique uneven uneven'
    exact reported

/-! ## Rows that are observations -/

section Observed

variable (counted : frame.rowCount = .ok rows) (series : frame.IsSeries time)
variable (read : time.times = .ok times)

include counted series read

/-- The observations of a frame are told apart when no two rows are one of them. -/
theorem observations_nodup_iff : (frame.observations times).Nodup ↔
    ∀ first second observation, frame.observationAt? first = some observation →
      frame.observationAt? second = some observation → first = second := by
  have observed := observations_getElem? counted series read
  simp only [← observed]
  constructor
  · intro distinct first second observation atFirst atSecond
    obtain ⟨inFirst, here⟩ := List.getElem?_eq_some_iff.1 atFirst
    obtain ⟨inSecond, there⟩ := List.getElem?_eq_some_iff.1 atSecond
    exact distinct.getElem_inj_iff.1 (here.trans there.symm)
  · intro once
    rw [List.nodup_iff_getElem?_ne_getElem?]
    intro first second before inside same
    have atSecond := List.getElem?_eq_getElem inside
    exact absurd (once first second _ (same.trans atSecond) atSecond) (Nat.ne_of_lt before)

/-- The row that is reported as repeated, among the rows of the frame. -/
theorem firstRepeated?_iff {row : Nat} {observation : Observation} :
    Observation.firstRepeated? [] 0 (frame.observations times) = some (row, observation) ↔
      frame.observationAt? row = some observation ∧
        (∃ earlier < row, frame.observationAt? earlier = some observation) ∧
        ∀ later < row, ∀ earlier < later,
          frame.observationAt? earlier ≠ frame.observationAt? later := by
  have observed := observations_getElem? counted series read
  simp only [← observed]
  rw [Observation.firstRepeated?_eq_some_iff]
  simp only [List.not_mem_nil, false_or, not_false_eq_true, implies_true, and_true, Nat.zero_add,
    exists_eq_left']
  refine and_congr_right fun here => and_congr ?_ ?_
  · rw [List.mem_take_iff_getElem]
    constructor
    · rintro ⟨earlier, below, there⟩
      exact ⟨earlier, Nat.lt_of_lt_of_le below (Nat.min_le_left ..),
        List.getElem?_eq_some_iff.2 ⟨Nat.lt_of_lt_of_le below (Nat.min_le_right ..), there⟩⟩
    · rintro ⟨earlier, below, there⟩
      obtain ⟨inside, same⟩ := List.getElem?_eq_some_iff.1 there
      exact ⟨earlier, Nat.lt_min.2 ⟨below, inside⟩, same⟩
  · have within := (List.getElem?_eq_some_iff.1 here).1
    rw [List.nodup_iff_getElem?_ne_getElem?]
    constructor
    · intro distinct later below earlier before
      have differ := distinct earlier later before (by rw [List.length_take]; omega)
      rwa [List.getElem?_take_of_lt (Nat.lt_trans before below),
        List.getElem?_take_of_lt below] at differ
    · intro distinct earlier later before inside
      rw [List.length_take] at inside
      rw [List.getElem?_take_of_lt (by omega), List.getElem?_take_of_lt (by omega)]
      exact distinct later (by omega) earlier before

/-- The rows of a frame are written and filled unless two of them are one observation. -/
theorem scatterFields_outcome (fill : Option Fill) :
    ((frame.observations times).Nodup ∧ ∃ fields,
        scatterFields fill time times frame.factorFields frame.valueFields = .ok fields) ∨
      ∃ row observation,
        Observation.firstRepeated? [] 0 (frame.observations times) = some (row, observation) ∧
        scatterFields fill time times frame.factorFields frame.valueFields =
          .error (.pivot (.duplicateRow row observation.time observation.factors)) := by
  rw [scatterFields_eq counted series read]
  cases repeated : Observation.firstRepeated? [] 0 (frame.observations times) with
  | some found => exact .inr ⟨found.1, found.2, rfl, rfl⟩
  | none =>
    obtain ⟨new, made⟩ := frame.exists_ofSeries fill (Instant.distinct times)
      (frame.observations times) (frame.factorFields.map Field.name)
    have whole := mapM_ofSeries (Observation.series (frame.observations times)) made
    exact .inl ⟨(Observation.firstRepeated?_eq_none.1 repeated).1, _,
      map_eq_ok_iff.2 ⟨_, whole, rfl⟩⟩

end Observed

/-! ## Frames that are made wide, and frames that are not -/

/-- What a frame is that can be made wide: a long time series whose fields have one length, with a row
at least and without a null among the times, in which no two rows have the same time and the same texts
of the factors. -/
structure Pivotable (frame : Frame) : Prop where
  layout : frame.seriesRoles.kind = .long
  even : ∀ one ∈ frame.fields, ∀ other ∈ frame.fields, one.size = other.size
  someRow : ∃ field ∈ frame.fields, 0 < field.size
  timed : ∀ field ∈ frame.timeFields, ∀ row, field.column.get? row ≠ some .null
  once : ∀ first second observation, frame.observationAt? first = some observation →
    frame.observationAt? second = some observation → first = second

/-- Why a frame cannot be made wide, in the order in which it is found out. -/
inductive Refused (frame : Frame) : Error → Prop
  | layout (other : frame.seriesRoles.kind ≠ .long) :
    Refused frame (.pivot (.notLong frame.seriesRoles.kind))
  | uneven {expected position actual : Nat} (layout : frame.seriesRoles.kind = .long)
    (uneven : frame.UnevenAt expected position actual) :
    Refused frame (.fieldLengths expected position actual)
  | noRows (layout : frame.seriesRoles.kind = .long) (empty : ∀ field ∈ frame.fields, field.size = 0) :
    Refused frame (.pivot (.noRows frame.name))
  | nullTime {time : Field} {row : Nat} (layout : frame.seriesRoles.kind = .long)
    (even : ∀ one ∈ frame.fields, ∀ other ∈ frame.fields, one.size = other.size)
    (isTime : time ∈ frame.timeFields) (null : time.column.get? row = some .null)
    (first : ∀ earlier < row, time.column.get? earlier ≠ some .null) :
    Refused frame (.pivot (.nullTime time.name row))
  | repeated {row : Nat} {observation : Observation} (layout : frame.seriesRoles.kind = .long)
    (even : ∀ one ∈ frame.fields, ∀ other ∈ frame.fields, one.size = other.size)
    (timed : ∀ field ∈ frame.timeFields, ∀ row, field.column.get? row ≠ some .null)
    (here : frame.observationAt? row = some observation)
    (again : ∃ earlier < row, frame.observationAt? earlier = some observation)
    (first : ∀ later < row, ∀ earlier < later,
      frame.observationAt? earlier ≠ frame.observationAt? later) :
    Refused frame (.pivot (.duplicateRow row observation.time observation.factors))

/-- The steps that are left when the layout is long. -/
theorem scatter_of_layout (layout : frame.seriesRoles.kind = .long) (series : frame.IsSeries time)
    (fill : Option Fill) :
    frame.scatter fill = frame.rowCount.bind fun rows =>
      if rows = 0 then .error (.pivot (.noRows frame.name))
      else time.times.bind fun times =>
        (scatterFields fill time times frame.factorFields frame.valueFields).bind fun fields => .ok
          { name := frame.name
            refId := frame.refId
            fields
            info := some (frame.infoWithShape .timeSeriesWide) } := by
  obtain ⟨-, timeField, factors, values⟩ := seriesRead_of_isSeries series
  unfold scatter
  dsimp only
  rw [if_neg (not_not.2 layout), timeField, factors, values]
  rfl

theorem mem_timeFields (series : frame.IsSeries time) : time ∈ frame.timeFields := by
  simp [series.time]

theorem fields_ne_nil (series : frame.IsSeries time) : frame.fields ≠ [] := by
  intro none
  have inTimes := mem_timeFields series
  rw [timeFields, none] at inTimes
  cases inTimes

theorem kind_of_mem_timeFields {field : Field} (member : field ∈ frame.timeFields) :
    field.type.kind = .time := by
  simpa using (List.mem_filter.1 member).2

/-- The times of a series are read when none of them is null. -/
theorem exists_times_iff (series : frame.IsSeries time) : (∃ times, time.times = .ok times) ↔
    ∀ field ∈ frame.timeFields, ∀ row, field.column.get? row ≠ some .null := by
  rw [Field.exists_times_iff (kind_of_mem_timeFields (mem_timeFields series)), series.time]
  simp only [List.mem_singleton, forall_eq]

/-- A time series of one length is counted. -/
theorem exists_counted (known : frame.seriesRoles.kind ≠ .not)
    (even : ∀ one ∈ frame.fields, ∀ other ∈ frame.fields, one.size = other.size) :
    ∃ time rows, frame.IsSeries time ∧ frame.rowCount = .ok rows := by
  obtain ⟨time, series⟩ := isSeries_of_kind known
  obtain ⟨rows, counted⟩ := (exists_rowCount_iff (fields_ne_nil series)).2 (not_ragged_iff.2 even)
  exact ⟨time, rows, series, counted⟩

/-- A frame of one length has no rows when its fields have none. -/
theorem rows_eq_zero_iff (counted : frame.rowCount = .ok rows) :
    rows = 0 ↔ ∀ field ∈ frame.fields, field.size = 0 := by
  obtain ⟨some, even⟩ := rowCount_eq_ok_iff.1 counted
  constructor
  · rintro rfl
    exact even
  · intro empty
    obtain ⟨first, rest, fields⟩ := List.exists_cons_of_ne_nil some
    have member : first ∈ frame.fields := by
      rw [fields]
      exact List.mem_cons_self
    exact (even first member).symm.trans (empty first member)

section Decided

variable {fill : Option Fill}

/-- A frame that can be made wide is, whatever the fill. -/
theorem exists_scatter_of_pivotable (pivotable : frame.Pivotable) (fill : Option Fill) :
    ∃ wide, frame.scatter fill = .ok wide := by
  obtain ⟨time, rows, series, counted⟩ :=
    exists_counted (by rw [pivotable.layout]; nofun) pivotable.even
  obtain ⟨times, read⟩ := (exists_times_iff series).2 pivotable.timed
  have someRow : rows ≠ 0 := by
    obtain ⟨field, member, positive⟩ := pivotable.someRow
    intro none
    exact Nat.ne_of_gt positive ((rows_eq_zero_iff counted).1 none field member)
  have distinct := (observations_nodup_iff counted series read).2 pivotable.once
  rw [scatter_of_layout pivotable.layout series, counted, Except.bind, if_neg someRow, read, Except.bind]
  rcases scatterFields_outcome counted series read fill with ⟨-, fields, made⟩ | ⟨row, _, found, -⟩
  · rw [made]
    exact ⟨_, rfl⟩
  · rw [Observation.firstRepeated?_eq_none.2 ⟨distinct, fun _ _ => List.not_mem_nil⟩] at found
    cases found

/-- A frame is made wide or refused. -/
theorem pivotable_or_refused (frame : Frame) (fill : Option Fill) :
    frame.Pivotable ∨ ∃ error, frame.Refused error ∧ frame.scatter fill = .error error := by
  by_cases layout : frame.seriesRoles.kind = .long
  · obtain ⟨time, series⟩ := isSeries_of_kind (by rw [layout]; nofun)
    have inTimes := mem_timeFields series
    rw [scatter_of_layout layout series]
    cases counted : frame.rowCount with
    | error error =>
      obtain ⟨expected, position, actual, uneven, rfl⟩ :=
        (rowCount_eq_error_iff (fields_ne_nil series)).1 counted
      exact .inr ⟨_, .uneven layout uneven, rfl⟩
    | ok rows =>
      have even := not_ragged_iff.1 ((exists_rowCount_iff (fields_ne_nil series)).1 ⟨rows, counted⟩)
      rw [Except.bind]
      by_cases none : rows = 0
      · exact .inr ⟨_, .noRows layout ((rows_eq_zero_iff counted).1 none), if_pos none⟩
      · rw [if_neg none]
        cases read : time.times with
        | error error =>
          obtain ⟨row, null, first, rfl⟩ :=
            (Field.times_eq_error_iff (kind_of_mem_timeFields inTimes)).1 read
          exact .inr ⟨_, .nullTime layout even inTimes null first, rfl⟩
        | ok times =>
          have timed := (exists_times_iff series).1 ⟨times, read⟩
          rw [Except.bind]
          rcases scatterFields_outcome counted series read fill with
            ⟨distinct, -⟩ | ⟨row, observation, found, failed⟩
          · have someRow : ∃ field ∈ frame.fields, 0 < field.size := by
              by_contra empty
              simp only [not_exists, not_and, Nat.not_lt, Nat.le_zero] at empty
              exact none ((rows_eq_zero_iff counted).2 empty)
            exact .inl ⟨layout, even, someRow, timed,
              (observations_nodup_iff counted series read).1 distinct⟩
          · obtain ⟨here, again, first⟩ := (firstRepeated?_iff counted series read).1 found
            rw [failed]
            exact .inr ⟨_, .repeated layout even timed here again first, rfl⟩
  · refine .inr ⟨_, .layout layout, ?_⟩
    unfold scatter
    dsimp only
    rw [if_pos layout]

/-- The reason for which a frame is refused is the one that is reported. -/
theorem scatter_of_refused (refused : frame.Refused error) (fill : Option Fill) :
    frame.scatter fill = .error error := by
  cases refused with
  | layout other =>
    unfold scatter
    dsimp only
    rw [if_pos other]
  | uneven layout uneven =>
    obtain ⟨time, series⟩ := isSeries_of_kind (by rw [layout]; nofun)
    have failed := (rowCount_eq_error_iff (fields_ne_nil series)).2 ⟨_, _, _, uneven, rfl⟩
    rw [scatter_of_layout layout series, failed]
    rfl
  | noRows layout empty =>
    have even : ∀ one ∈ frame.fields, ∀ other ∈ frame.fields, one.size = other.size :=
      fun one inFields other alsoIn => (empty one inFields).trans (empty other alsoIn).symm
    obtain ⟨time, rows, series, counted⟩ := exists_counted (by rw [layout]; nofun) even
    rw [scatter_of_layout layout series, counted, Except.bind,
      if_pos ((rows_eq_zero_iff counted).2 empty)]
  | @nullTime nullField row layout even isTime null first =>
    obtain ⟨time, rows, series, counted⟩ := exists_counted (by rw [layout]; nofun) even
    rw [series.time, List.mem_singleton] at isTime
    subst isTime
    have inTimes := mem_timeFields series
    have someRow : rows ≠ 0 := by
      rintro rfl
      have none := (rowCount_eq_ok_iff.1 counted).2 nullField (List.mem_filter.1 inTimes).1
      rw [Column.get?_eq_values] at null
      have inside := (List.getElem?_eq_some_iff.1 null).1
      rw [Column.length_values, none] at inside
      exact Nat.not_lt_zero _ inside
    have failed := (Field.times_eq_error_iff (kind_of_mem_timeFields inTimes)).2
      ⟨row, null, first, rfl⟩
    rw [scatter_of_layout layout series, counted, Except.bind, if_neg someRow, failed]
    rfl
  | @repeated row observation layout even timed here again first =>
    obtain ⟨time, rows, series, counted⟩ := exists_counted (by rw [layout]; nofun) even
    obtain ⟨times, read⟩ := (exists_times_iff series).2 timed
    have someRow : rows ≠ 0 := by
      rintro rfl
      obtain ⟨instant, atRow, -⟩ := Option.map_eq_some_iff.1 here
      exact Nat.not_lt_zero _ (row_lt counted series read atRow)
    have found := (firstRepeated?_iff counted series read).2 ⟨here, again, first⟩
    rw [scatter_of_layout layout series, counted, Except.bind, if_neg someRow, read, Except.bind]
    rcases scatterFields_outcome counted series read fill with ⟨distinct, -⟩ | ⟨_, _, also, failed⟩
    · rw [Observation.firstRepeated?_eq_none.2 ⟨distinct, fun _ _ => List.not_mem_nil⟩] at found
      cases found
    · rw [found] at also
      cases also
      rw [failed]
      rfl

end Decided

end Frame

/-- Errors that speak of one cell: a value of another type, a null, or an index beyond the end. -/
def Error.ofCell : Error → Bool
  | typeMismatch .. | nullNotAllowed .. | indexOutOfRange .. => true
  | _ => false

namespace Frame

/-- A frame can be made wide when it is a long time series of one length with a row and without a null
among its times, and no two of its rows have the same time and texts. It is refused for the first of
these that fails, with the first row where a time is null, and never for a cell that is written. Neither
depends on the fill, or on whether the cells are written one after the other. -/
theorem scatter_accepts_iff (frame : Frame) (fill : Option Fill) :
    frame.scatter fill = frame.longToWide fill ∧
      ((∃ wide, frame.scatter fill = .ok wide) ↔ frame.Pivotable) ∧
      (∀ error, frame.scatter fill = .error error ↔ frame.Refused error) ∧
      ∀ error, frame.scatter fill = .error error → error.ofCell = false := by
  have refused_of_failed : ∀ error, frame.scatter fill = .error error → frame.Refused error := by
    intro error failed
    rcases frame.pivotable_or_refused fill with pivotable | ⟨other, refused, also⟩
    · obtain ⟨wide, made⟩ := exists_scatter_of_pivotable pivotable fill
      rw [made] at failed
      cases failed
    · rw [failed] at also
      cases also
      exact refused
  refine ⟨frame.scatter_eq_longToWide fill, ⟨?_, fun pivotable => ?_⟩, fun error => ⟨?_, ?_⟩,
    fun error failed => ?_⟩
  · rintro ⟨wide, made⟩
    rcases frame.pivotable_or_refused fill with pivotable | ⟨error, -, failed⟩
    · exact pivotable
    · rw [made] at failed
      cases failed
  · exact exists_scatter_of_pivotable pivotable fill
  · exact refused_of_failed error
  · exact fun refused => scatter_of_refused refused fill
  · cases refused_of_failed error failed <;> rfl

end Frame

end Columnar
