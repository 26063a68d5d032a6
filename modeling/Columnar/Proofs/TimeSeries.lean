import Columnar.TimeSeries
import Columnar.Pivot.Times

/-! The fields of a time series. A frame is one when each of its fields tells the time, is a text or
is observed, exactly one tells the time and at least one is observed; texts decide its layout. -/
namespace Columnar

namespace Kind

/-- Numbers and truth values are observed. -/
def isObserved (kind : Kind) : Bool := kind.isNumeric || kind == .bool

theorem ne_of_isObserved {kind : Kind} (observed : kind.isObserved = true) :
    kind ≠ .time ∧ kind ≠ .string := by
  cases kind <;> simp_all [isObserved, isNumeric]

end Kind

namespace Frame

/-- The fields that tell the time. -/
def timeFields (frame : Frame) : List Field := frame.fields.filter (·.type.kind == .time)

/-- The fields whose texts tell one series from another. -/
def factorFields (frame : Frame) : List Field := frame.fields.filter (·.type.kind == .string)

/-- The fields that are observed. -/
def valueFields (frame : Frame) : List Field := frame.fields.filter (·.type.kind.isObserved)

/-- A frame as a time series with the given field of times. -/
structure IsSeries (frame : Frame) (time : Field) : Prop where
  kinds : ∀ field ∈ frame.fields, field.type.kind = .time ∨ field.type.kind = .string ∨
    field.type.kind.isObserved = true
  time : frame.timeFields = [time]
  values : frame.valueFields ≠ []

end Frame

namespace SeriesRoles

/-- The positions of the types that have a property. -/
def positions (property : FieldType → Bool) (types : List (FieldType × Nat)) : List Nat :=
  (types.filter fun type => property type.1).map (·.2)

/-- What every further type adds to the roles, and when all of them find one. -/
structure Assigned (before : SeriesRoles) (types : List (FieldType × Nat))
    (after : SeriesRoles × Bool) : Prop where
  kind : after.1.kind = before.kind
  complete : after.2 = true ↔
    (∀ type ∈ types, type.1.kind = .time ∨ type.1.kind = .string ∨ type.1.kind.isObserved = true) ∧
      (positions (·.kind == .time) types).length + before.time.toList.length ≤ 1
  time : after.2 = true → after.1.time = before.time.or (positions (·.kind == .time) types).head?
  factors : after.2 = true →
    after.1.factors = before.factors ++ positions (·.kind == .string) types
  values : after.2 = true →
    after.1.values = before.values ++ positions (·.kind.isObserved) types

theorem assigned (before : SeriesRoles) (types : List (FieldType × Nat)) :
    Assigned before types (assign before types) := by
  induction types generalizing before with
  | nil =>
    refine ⟨rfl, ?_, ?_, ?_, ?_⟩
    · cases before.time <;> simp [assign, positions]
    all_goals simp [assign, positions]
  | cons first rest ih =>
    obtain ⟨type, position⟩ := first
    simp only [assign]
    split
    next isTime =>
      obtain ⟨isTime, unknown⟩ := isTime
      have absent : before.time = none := by simpa using unknown
      obtain ⟨kind, complete, time, factors, values⟩ :=
        ih { before with time := some position, timeNullable := type.nullable }
      refine ⟨kind, ?_, ?_, ?_, ?_⟩
      · rw [complete]
        simp [positions, isTime, absent, Nat.add_comm]
      · intro done
        simpa [positions, isTime, absent] using! time done
      · intro done
        simpa [positions, isTime] using! factors done
      · intro done
        simpa [positions, isTime, Kind.isObserved, Kind.isNumeric] using! values done
    next notTime =>
      split
      next isString =>
        obtain ⟨kind, complete, time, factors, values⟩ :=
          ih { before with factors := before.factors ++ [position] }
        refine ⟨kind, ?_, ?_, ?_, ?_⟩
        · rw [complete]
          simp [positions, isString]
        · intro done
          simpa [positions, isString] using! time done
        · intro done
          simpa [positions, isString] using! factors done
        · intro done
          simpa [positions, isString, Kind.isObserved, Kind.isNumeric] using! values done
      next notString =>
        split
        next isObserved =>
          have observed : type.kind.isObserved = true := by simpa [Kind.isObserved] using isObserved
          have other : type.kind ≠ .time := by
            rintro isTime
            simp [isTime, Kind.isObserved, Kind.isNumeric] at observed
          obtain ⟨kind, complete, time, factors, values⟩ :=
            ih { before with values := before.values ++ [position] }
          refine ⟨kind, ?_, ?_, ?_, ?_⟩
          · rw [complete]
            simp [positions, observed, other]
          · intro done
            simpa [positions, other] using! time done
          · intro done
            simpa [positions, notString] using! factors done
          · intro done
            simpa [positions, observed] using! values done
        next notObserved =>
          have unobserved : type.kind.isObserved = false := by
            simpa [Kind.isObserved] using notObserved
          refine ⟨rfl, ?_, nofun, nofun, nofun⟩
          simp only [Bool.false_eq_true, false_iff, not_and]
          intro kinds
          have isTime : type.kind = .time := by simpa [notString, unobserved] using kinds _ (.head _)
          have known : before.time ≠ none := by simpa [isTime] using notTime
          cases held : before.time with
          | none => exact absurd held known
          | some earlier => simp [positions, isTime]

/-- The fields at the positions of a property are the fields that have it. -/
private theorem fieldsAt_positions (property : FieldType → Bool) (look : Nat → Option Field)
    (fields : List Field) (start : Nat)
    (found : ∀ index < fields.length, look (start + index) = fields[index]?) :
    (positions property ((fields.map Field.type).zipIdx start)).filterMap look =
      fields.filter fun field => property field.type := by
  induction fields generalizing start with
  | nil => rfl
  | cons field rest ih =>
    have here : look start = some field := by simpa using found 0 (by simp)
    have later := ih (start + 1) fun index inside => by
      simpa [Nat.add_assoc, Nat.add_comm 1] using found (index + 1) (by simpa using inside)
    cases has : property field.type <;> simpa [positions, has, here] using later

private theorem length_positions (property : FieldType → Bool) (types : List FieldType) :
    (positions property types.zipIdx).length = (types.filter property).length := by
  have same : ((types.zipIdx.map Prod.fst).filter property).length =
      (positions property types.zipIdx).length := by
    rw [List.filter_map, List.length_map, positions, List.length_map]
    rfl
  rw [← same, List.zipIdx_map_fst]

end SeriesRoles

namespace Frame

variable {frame : Frame} {time : Field}

private theorem fieldsAt_roles (frame : Frame) (property : FieldType → Bool) :
    frame.fieldsAt (SeriesRoles.positions property frame.types.zipIdx) =
      frame.fields.filter fun field => property field.type :=
  SeriesRoles.fieldsAt_positions property _ frame.fields 0 fun index _ => by rw [Nat.zero_add]

theorem length_positions (frame : Frame) (property : FieldType → Bool) :
    (SeriesRoles.positions property frame.types.zipIdx).length =
      (frame.fields.filter fun field => property field.type).length := by
  rw [SeriesRoles.length_positions, types, List.filter_map, List.length_map]
  rfl

/-- How a time series is read: its layout, and which fields have which role. -/
structure SeriesRead (frame : Frame) (time : Field) : Prop where
  kind : frame.seriesRoles.kind = if frame.factorFields = [] then .wide else .long
  time : frame.timeField frame.seriesRoles = .ok time
  factors : frame.fieldsAt frame.seriesRoles.factors = frame.factorFields
  values : frame.fieldsAt frame.seriesRoles.values = frame.valueFields

/-- The roles of a frame in which every field has one, a time among them. -/
private theorem seriesRead_of_roles {roles : SeriesRoles} {kind : SeriesKind}
    (layout : kind = if frame.factorFields = [] then .wide else .long)
    (read : frame.seriesRoles = { roles with kind })
    (timeAt : roles.time = (SeriesRoles.positions (·.kind == .time) frame.types.zipIdx).head?)
    (factors : roles.factors = SeriesRoles.positions (·.kind == .string) frame.types.zipIdx)
    (values : roles.values = SeriesRoles.positions (·.kind.isObserved) frame.types.zipIdx)
    (series : frame.IsSeries time) : frame.SeriesRead time := by
  refine ⟨by rw [read, layout], ?_, ?_, ?_⟩
  · have one := length_positions frame (·.kind == .time)
    have found := fieldsAt_roles frame (·.kind == .time)
    have times : (frame.fields.filter fun field => field.type.kind == .time) = [time] := series.time
    rw [times] at one found
    obtain ⟨position, only⟩ := List.length_eq_one_iff.1 one
    have there : frame.fields[position]? = some time := by
      cases here : frame.fields[position]? <;> simp_all [fieldsAt]
    rw [read, timeField]
    simp [timeAt, only, Frame.field, there]
  · rw [read, factors]
    exact fieldsAt_roles ..
  · rw [read, values]
    exact fieldsAt_roles ..

theorem complete_iff (frame : Frame) :
    (SeriesRoles.assign {} frame.types.zipIdx).2 = true ↔
      (∀ field ∈ frame.fields, field.type.kind = .time ∨ field.type.kind = .string ∨
        field.type.kind.isObserved = true) ∧ frame.timeFields.length ≤ 1 := by
  rw [(SeriesRoles.assigned {} frame.types.zipIdx).complete, length_positions]
  refine and_congr ⟨fun kinds field member => ?_, fun kinds type member => ?_⟩ Iff.rfl
  · obtain ⟨index, inside, here⟩ := List.mem_iff_getElem.1 member
    refine here ▸ kinds (frame.fields[index].type, index) ?_
    simp [List.mk_mem_zipIdx_iff_getElem?, types, inside]
  · obtain ⟨field, inFrame, same⟩ := List.mem_map.1 (List.fst_mem_of_mem_zipIdx member)
    exact same ▸ kinds field inFrame

/-- A time series is read as one. -/
theorem seriesRead_of_isSeries (series : frame.IsSeries time) : frame.SeriesRead time := by
  have complete : (SeriesRoles.assign {} frame.types.zipIdx).2 = true :=
    (complete_iff frame).2 ⟨series.kinds, by simp [series.time]⟩
  have roles := SeriesRoles.assigned {} frame.types.zipIdx
  have timeAt := roles.time complete
  have factors := roles.factors complete
  have values := roles.values complete
  have timeKnown : (SeriesRoles.positions (·.kind == .time) frame.types.zipIdx) ≠ [] := by
    have one := length_positions frame (·.kind == .time)
    have times : (frame.fields.filter fun field => field.type.kind == .time) = [time] := series.time
    rw [times] at one
    exact List.ne_nil_of_length_eq_add_one one
  have valuesKnown : (SeriesRoles.positions (·.kind.isObserved) frame.types.zipIdx) ≠ [] := by
    intro none
    have found := fieldsAt_roles frame (·.kind.isObserved)
    rw [none] at found
    exact series.values found.symm
  have noFactors : (SeriesRoles.positions (·.kind == .string) frame.types.zipIdx).isEmpty =
      decide (frame.factorFields = []) := by
    have same : (SeriesRoles.positions (·.kind == .string) frame.types.zipIdx).length =
        frame.factorFields.length := length_positions ..
    rw [Bool.eq_iff_iff, decide_eq_true_iff, List.isEmpty_iff, ← List.length_eq_zero_iff, same,
      List.length_eq_zero_iff]
  refine seriesRead_of_roles rfl ?_ timeAt factors values series
  rw [seriesRoles, SeriesRoles.ofTypes]
  simp only [complete, timeAt, factors, values]
  simp [timeKnown, valuesKnown, noFactors]

/-- A time series is wide when it has no factors. -/
theorem IsSeries.kind_eq_wide_iff (series : frame.IsSeries time) :
    frame.seriesRoles.kind = .wide ↔ frame.factorFields = [] := by
  rw [(seriesRead_of_isSeries series).kind]
  by_cases none : frame.factorFields = [] <;> simp [none]

/-- Only a time series is read as one. -/
theorem isSeries_of_kind (known : frame.seriesRoles.kind ≠ .not) :
    ∃ time, frame.IsSeries time := by
  have roles := SeriesRoles.assigned {} frame.types.zipIdx
  rw [seriesRoles, SeriesRoles.ofTypes] at known
  simp only at known
  split at known
  next unknown => exact absurd roles.kind known
  next all =>
    simp only [Bool.or_eq_true, Bool.not_eq_true', not_or, Bool.not_eq_false] at all
    obtain ⟨⟨complete, hasTime⟩, hasValues⟩ := all
    obtain ⟨kinds, atMostOne⟩ := (complete_iff frame).1 complete
    have timeAt := roles.time complete
    have values := roles.values complete
    have one : frame.timeFields.length = 1 := by
      have same : (SeriesRoles.positions (·.kind == .time) frame.types.zipIdx).length =
          frame.timeFields.length := length_positions ..
      cases found : SeriesRoles.positions (·.kind == .time) frame.types.zipIdx with
      | nil => simp [timeAt, found] at hasTime
      | cons first rest =>
        rw [found, List.length_cons] at same
        omega
    obtain ⟨time, only⟩ := List.length_eq_one_iff.1 one
    refine ⟨time, kinds, only, fun none => hasValues ?_⟩
    have same : (SeriesRoles.positions (·.kind.isObserved) frame.types.zipIdx).length =
        frame.valueFields.length := length_positions ..
    rw [none] at same
    simpa [values] using same

/-- A frame whose fields stand by their roles: times, then observed fields, then texts. -/
structure InRoles (frame : Frame) (time : Field) (values texts : List Field) : Prop where
  fields : frame.fields = time :: (values ++ texts)
  time : time.type.kind = .time
  values : ∀ field ∈ values, field.type.kind.isObserved = true
  texts : ∀ field ∈ texts, field.type.kind = .string

namespace InRoles

variable {values texts : List Field} (roles : frame.InRoles time values texts)

include roles

theorem timeFields_eq : frame.timeFields = [time] := by
  have noValue : values.filter (·.type.kind == .time) = [] := by
    apply List.filter_eq_nil_iff.2
    intro field member
    simpa using (Kind.ne_of_isObserved (roles.values field member)).1
  have noText : texts.filter (·.type.kind == .time) = [] := by
    apply List.filter_eq_nil_iff.2
    intro field member
    simp [roles.texts field member]
  rw [timeFields, roles.fields, List.filter_cons_of_pos (by simp [roles.time]), List.filter_append,
    noValue, noText, List.append_nil]

theorem valueFields_eq : frame.valueFields = values := by
  have notTime : time.type.kind.isObserved = false := by rw [roles.time]; rfl
  have noText : texts.filter (·.type.kind.isObserved) = [] := by
    apply List.filter_eq_nil_iff.2
    intro field member
    rw [roles.texts field member]
    decide
  rw [valueFields, roles.fields, List.filter_cons_of_neg (by simp [notTime]), List.filter_append,
    List.filter_eq_self.2 roles.values, noText, List.append_nil]

theorem factorFields_eq : frame.factorFields = texts := by
  have noValue : values.filter (·.type.kind == .string) = [] := by
    apply List.filter_eq_nil_iff.2
    intro field member
    simpa using (Kind.ne_of_isObserved (roles.values field member)).2
  have all : texts.filter (·.type.kind == .string) = texts := by
    apply List.filter_eq_self.2
    intro field member
    simp [roles.texts field member]
  rw [factorFields, roles.fields, List.filter_cons_of_neg (by simp [roles.time]),
    List.filter_append, noValue, all, List.nil_append]

/-- Such a frame is a time series when something is observed in it. -/
theorem isSeries (some : values ≠ []) : frame.IsSeries time := by
  refine ⟨fun field member => ?_, roles.timeFields_eq, by rwa [roles.valueFields_eq]⟩
  rw [roles.fields] at member
  rcases List.mem_cons.1 member with rfl | member
  · exact .inl roles.time
  · rcases List.mem_append.1 member with isValue | isText
    · exact .inr (.inr (roles.values field isValue))
    · exact .inr (.inl (roles.texts field isText))

end InRoles

end Frame

end Columnar
