import Columnar.Proofs.TimeSeries
import Mathlib.Data.List.Nodup

/-! Every field of a time series has one role. The layout of a frame is decided by what its fields are,
in whatever order they stand; and in a time series the positions of the roles are all the positions
there are, each of them once. -/
namespace Columnar

namespace SeriesRoles

variable {types : List FieldType} {property : FieldType → Bool} {position : Nat}

theorem mem_positions : position ∈ positions property types.zipIdx ↔
    ∃ type, types[position]? = some type ∧ property type = true := by
  simp only [positions, List.mem_map, List.mem_filter]
  constructor
  · rintro ⟨⟨type, _⟩, ⟨listed, has⟩, rfl⟩
    exact ⟨type, List.mem_zipIdx_iff_getElem?.1 listed, has⟩
  · rintro ⟨type, here, has⟩
    exact ⟨(type, position), ⟨List.mem_zipIdx_iff_getElem?.2 here, has⟩, rfl⟩

theorem positions_ascending (property : FieldType → Bool) (types : List FieldType) :
    (positions property types.zipIdx).Pairwise (· < ·) := by
  have all : (types.zipIdx.map Prod.snd).Pairwise (· < ·) := by
    rw [List.zipIdx_map_snd]
    exact List.pairwise_lt_range'
  exact all.sublist (List.filter_sublist.map Prod.snd)

/-- The time that is known and whether it may be null come from the same field. -/
theorem timeNullable_assign (before : SeriesRoles) (types : List (FieldType × Nat))
    (known : (assign before types).1.time = some position) :
    (before.time = some position ∧ (assign before types).1.timeNullable = before.timeNullable) ∨
      ∃ type, (type, position) ∈ types ∧ type.kind = .time ∧
        (assign before types).1.timeNullable = type.nullable := by
  fun_induction assign before types with
  | case1 before => exact .inl ⟨known, rfl⟩
  | case2 before type here rest isTime ih =>
    rcases ih known with ⟨same, nullable⟩ | ⟨later, listed, found⟩
    · cases same
      exact .inr ⟨type, List.mem_cons_self .., isTime.1, nullable⟩
    · exact .inr ⟨later, List.mem_cons_of_mem _ listed, found⟩
  | case3 before type here rest notTime isString ih =>
    exact (ih known).imp id fun ⟨later, listed, found⟩ =>
      ⟨later, List.mem_cons_of_mem _ listed, found⟩
  | case4 before type here rest notTime notString isObserved ih =>
    exact (ih known).imp id fun ⟨later, listed, found⟩ =>
      ⟨later, List.mem_cons_of_mem _ listed, found⟩
  | case5 before type here rest notTime notString notObserved => exact .inl ⟨known, rfl⟩

/-- The layout is all that is decided after every field has been seen. -/
theorem ofTypes_eq (types : List FieldType) :
    ofTypes types = { (assign {} types.zipIdx).1 with kind := (ofTypes types).kind } := by
  unfold ofTypes
  dsimp only
  split <;> rfl

end SeriesRoles

namespace Frame

/-- The field at a position is of such a kind. -/
def HasAt (frame : Frame) (property : Kind → Bool) (position : Nat) : Prop :=
  ∃ field, frame.fields[position]? = some field ∧ property field.type.kind = true

/-- The roles are those of the fields, and every field has one of them. -/
structure InOneRole (frame : Frame) (roles : SeriesRoles) : Prop where
  time_iff : ∀ position, roles.time = some position ↔ frame.HasAt (· == .time) position
  factors_iff : ∀ position, position ∈ roles.factors ↔ frame.HasAt (· == .string) position
  values_iff : ∀ position, position ∈ roles.values ↔ frame.HasAt Kind.isObserved position
  timeNullable : ∀ position field, roles.time = some position →
    frame.fields[position]? = some field → roles.timeNullable = field.type.nullable
  factorsAscending : roles.factors.Pairwise (· < ·)
  valuesAscending : roles.values.Pairwise (· < ·)
  once : (roles.time.toList ++ roles.factors ++ roles.values).Perm
    (List.range frame.fields.length)

/-- What can be relied on when a frame is taken for a time series or for none. -/
structure Classified (frame : Frame) : Prop where
  long_iff : frame.seriesRoles.kind = .long ↔
    (∃ time, frame.IsSeries time) ∧ frame.factorFields ≠ []
  wide_iff : frame.seriesRoles.kind = .wide ↔
    (∃ time, frame.IsSeries time) ∧ frame.factorFields = []
  not_iff : frame.seriesRoles.kind = .not ↔ ¬∃ time, frame.IsSeries time
  roles : frame.seriesRoles.kind ≠ .not → frame.InOneRole frame.seriesRoles

/-- The positions of the fields of such a kind. -/
def positionsOf (frame : Frame) (property : Kind → Bool) : List Nat :=
  SeriesRoles.positions (fun type => property type.kind) frame.types.zipIdx

variable {frame : Frame} {time : Field} {property : Kind → Bool} {position : Nat}

theorem mem_positionsOf : position ∈ frame.positionsOf property ↔ frame.HasAt property position := by
  simp only [positionsOf, HasAt, SeriesRoles.mem_positions, types, List.getElem?_map,
    Option.map_eq_some_iff]
  constructor
  · rintro ⟨_, ⟨field, here, rfl⟩, has⟩
    exact ⟨field, here, has⟩
  · rintro ⟨field, here, has⟩
    exact ⟨field.type, ⟨field, here, rfl⟩, has⟩

theorem positionsOf_ascending (frame : Frame) (property : Kind → Bool) :
    (frame.positionsOf property).Pairwise (· < ·) :=
  SeriesRoles.positions_ascending ..

theorem positionsOf_nodup (frame : Frame) (property : Kind → Bool) :
    (frame.positionsOf property).Nodup :=
  (frame.positionsOf_ascending property).imp Nat.ne_of_lt

/-- No position has a field of two kinds. -/
theorem positionsOf_disjoint {other : Kind → Bool}
    (apart : ∀ kind, property kind = true → other kind = false) :
    (frame.positionsOf property).Disjoint (frame.positionsOf other) := by
  intro position first second
  obtain ⟨field, here, has⟩ := mem_positionsOf.1 first
  obtain ⟨same, there, hasOther⟩ := mem_positionsOf.1 second
  rw [here] at there
  cases there
  rw [apart _ has] at hasOther
  cases hasOther

/-- The roles of a time series as lists of positions. -/
theorem roles_of_isSeries (series : frame.IsSeries time) :
    frame.seriesRoles.time.toList = frame.positionsOf (· == .time) ∧
      frame.seriesRoles.factors = frame.positionsOf (· == .string) ∧
      frame.seriesRoles.values = frame.positionsOf Kind.isObserved := by
  have complete : (SeriesRoles.assign {} frame.types.zipIdx).2 = true :=
    (complete_iff frame).2 ⟨series.kinds, by simp [series.time]⟩
  obtain ⟨-, -, timeAt, factors, values⟩ := SeriesRoles.assigned {} frame.types.zipIdx
  have one : (frame.positionsOf (· == .time)).length = frame.timeFields.length :=
    length_positions frame (·.kind == .time)
  rw [series.time] at one
  obtain ⟨only, alone⟩ := List.length_eq_one_iff.1 one
  rw [seriesRoles, SeriesRoles.ofTypes_eq]
  refine ⟨?_, factors complete, values complete⟩
  have head : (SeriesRoles.positions (·.kind == .time) frame.types.zipIdx).head? = some only :=
    congrArg List.head? alone
  rw [alone]
  exact congrArg Option.toList ((timeAt complete).trans head)

/-- A time, a text or observed: the field at a position of a time series is one of them and no more. -/
theorem positionsOf_perm (series : frame.IsSeries time) :
    (frame.positionsOf (· == .time) ++ frame.positionsOf (· == .string) ++
      frame.positionsOf Kind.isObserved).Perm (List.range frame.fields.length) := by
  have timeOrText : (frame.positionsOf (· == .time)).Disjoint (frame.positionsOf (· == .string)) :=
    positionsOf_disjoint fun kind isTime => by rw [eq_of_beq isTime]; rfl
  have timeOrValue : (frame.positionsOf (· == .time)).Disjoint (frame.positionsOf Kind.isObserved) :=
    positionsOf_disjoint fun kind isTime => by rw [eq_of_beq isTime]; rfl
  have textOrValue :
      (frame.positionsOf (· == .string)).Disjoint (frame.positionsOf Kind.isObserved) :=
    positionsOf_disjoint fun kind isText => by rw [eq_of_beq isText]; rfl
  have distinct : (frame.positionsOf (· == .time) ++ frame.positionsOf (· == .string) ++
      frame.positionsOf Kind.isObserved).Nodup :=
    ((frame.positionsOf_nodup _).append (frame.positionsOf_nodup _) timeOrText).append
      (frame.positionsOf_nodup _) (List.disjoint_append_left.2 ⟨timeOrValue, textOrValue⟩)
  apply (List.perm_ext_iff_of_nodup distinct List.nodup_range).2
  intro position
  simp only [List.mem_append, mem_positionsOf, List.mem_range]
  constructor
  · rintro ((⟨_, here, -⟩ | ⟨_, here, -⟩) | ⟨_, here, -⟩) <;>
      exact (List.getElem?_eq_some_iff.1 here).1
  · intro inside
    have here := List.getElem?_eq_getElem inside
    rcases series.kinds _ (List.getElem_mem inside) with isTime | isText | isValue
    · exact .inl (.inl ⟨_, here, beq_iff_eq.2 isTime⟩)
    · exact .inl (.inr ⟨_, here, beq_iff_eq.2 isText⟩)
    · exact .inr ⟨_, here, isValue⟩

theorem timeNullable_eq {field : Field} (known : frame.seriesRoles.time = some position)
    (here : frame.fields[position]? = some field) :
    frame.seriesRoles.timeNullable = field.type.nullable := by
  rw [seriesRoles, SeriesRoles.ofTypes_eq] at known ⊢
  rcases SeriesRoles.timeNullable_assign {} _ known with ⟨nowhere, -⟩ | ⟨type, listed, -, found⟩
  · cases nowhere
  · have same : some type = some field.type := by
      rw [← List.mem_zipIdx_iff_getElem?.1 listed, types, List.getElem?_map, here, Option.map_some]
    cases same
    exact found

/-- In a time series every position is that of one role. -/
theorem inOneRole (series : frame.IsSeries time) : frame.InOneRole frame.seriesRoles := by
  obtain ⟨times, factors, values⟩ := roles_of_isSeries series
  refine ⟨fun position => ?_, fun position => ?_, fun position => ?_, fun _ _ => timeNullable_eq,
    ?_, ?_, ?_⟩
  · rw [← mem_positionsOf, ← times, Option.mem_toList]
  · rw [factors, mem_positionsOf]
  · rw [values, mem_positionsOf]
  · rw [factors]
    exact frame.positionsOf_ascending _
  · rw [values]
    exact frame.positionsOf_ascending _
  · rw [times, factors, values]
    exact positionsOf_perm series

/-- A frame is long or wide just when each of its fields has a role, one of them the time and at least
one that of a value; and then each position is found once, under the role of its field. -/
theorem seriesRoles_classified (frame : Frame) : frame.Classified := by
  by_cases series : ∃ time, frame.IsSeries time
  · obtain ⟨time, known⟩ := id series
    have kind := (seriesRead_of_isSeries known).kind
    have roles := inOneRole known
    by_cases none : frame.factorFields = []
    · rw [if_pos none] at kind
      exact ⟨by simp [kind, none], by simp [kind, none, series], by simp [kind, series],
        fun _ => roles⟩
    · rw [if_neg none] at kind
      exact ⟨by simp [kind, none, series], by simp [kind, none], by simp [kind, series],
        fun _ => roles⟩
  · have kind : frame.seriesRoles.kind = .not := by
      by_contra known
      exact series (isSeries_of_kind known)
    exact ⟨by simp [kind, series], by simp [kind, series], by simp [kind, series],
      fun known => absurd kind known⟩

/-- The fields may stand in any order. -/
example : SeriesRoles.ofTypes [⟨.string, false⟩, ⟨.float64, true⟩, ⟨.time, true⟩, ⟨.bool, false⟩] =
    { kind := .long, time := some 2, timeNullable := true, factors := [0], values := [1, 3] } := rfl

end Frame

end Columnar
