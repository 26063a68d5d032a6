import Columnar.Pivot.Gathering
import Columnar.Proofs.Pivot.Arranged

/-! The value fields of a wide frame by number. Label sets and names are numbered in the order in which
they are first met, so that a pair of numbers leads to the field that is found under the label set and
the name; the types of the new columns are decided from these fields. -/
namespace Columnar

section Positions

variable {α : Type} [BEq α] [LawfulBEq α] {items : List α} {item : α}

/-- Numbering an item keeps the numbers that have been given. -/
theorem positionOf_spec {seen : List α} (known : items = seen.eraseDups) (item : α) :
    (positionOf items item).2 = (seen ++ [item]).eraseDups ∧
      (positionOf items item).2[(positionOf items item).1]? = some item ∧
      items <+: (positionOf items item).2 := by
  rw [positionOf]
  split
  next position found =>
    have member : item ∈ items := by
      obtain ⟨inside, same, -⟩ := List.findIdx?_eq_some_iff_getElem.1 found
      exact eq_of_beq same ▸ List.getElem_mem inside
    have here : items[position]? = some item := by
      obtain ⟨inside, same, -⟩ := List.findIdx?_eq_some_iff_getElem.1 found
      exact List.getElem?_eq_some_iff.2 ⟨inside, eq_of_beq same⟩
    refine ⟨?_, here, List.prefix_refl _⟩
    rw [known, List.mem_eraseDups] at member
    rw [eraseDups_concat_of_mem member, known]
  next missing =>
    have absent : item ∉ seen := by
      intro member
      rw [← List.mem_eraseDups, ← known] at member
      have differs := List.findIdx?_eq_none_iff.1 missing item member
      rw [beq_self_eq_true] at differs
      cases differs
    refine ⟨?_, by simp, List.prefix_append ..⟩
    rw [eraseDups_concat_of_not_mem absent, known]

end Positions

namespace NumberedSeries

variable {series : NumberedSeries} {done : List Field} {field : Field}

/-- The fields have been numbered: label sets and names stand in the order of first meeting, and the
field of two numbers is the one that has the label set and the name there. -/
structure Numbers (series : NumberedSeries) (done : List Field) : Prop where
  names : series.names = (done.map Field.name).eraseDups
  labelSets : series.labelSets = (done.map Field.labels).eraseDups
  keys : series.keys = done.foldl (fun labels field => labels.extend field.labels) Labels.empty
  field? : ∀ set name field, series.field? set name = some field ↔
    field ∈ done ∧ series.labelSets[set]? = some field.labels ∧
      series.names[name]? = some field.name

theorem numbers_none : Numbers {} [] :=
  ⟨rfl, rfl, rfl, fun set name field => by simp [field?]⟩

/-- A field whose place is taken is refused. -/
theorem add_of_mem (numbers : series.Numbers done) (taken : field.place ∈ done.map Field.place) :
    series.add field = .error (.duplicateField (field.name ++ " " ++ field.labels.text)) := by
  obtain ⟨other, member, same⟩ := List.mem_map.1 taken
  obtain ⟨labels, name⟩ := Prod.mk.inj same
  obtain ⟨named, atName, -⟩ := positionOf_spec numbers.names field.name
  obtain ⟨labelled, atSet, -⟩ := positionOf_spec numbers.labelSets field.labels
  have oldName : field.name ∈ done.map Field.name := name ▸ List.mem_map_of_mem member
  have oldLabels : field.labels ∈ done.map Field.labels := labels ▸ List.mem_map_of_mem member
  rw [named, eraseDups_concat_of_mem oldName, ← numbers.names, ← name] at atName
  rw [labelled, eraseDups_concat_of_mem oldLabels, ← numbers.labelSets, ← labels] at atSet
  have found := (numbers.field? _ _ other).2 ⟨member, atSet, atName⟩
  rw [add]
  simp only
  rw [← name, ← labels, found]

/-- What has a place already keeps it. -/
theorem Numbers.place_iff_of_longer (numbers : series.Numbers done) {labelSets : List Labels}
    {names : List String} (keptSets : series.labelSets <+: labelSets) (keptNames : series.names <+: names)
    (setsOnce : labelSets.Nodup) (namesOnce : names.Nodup) {other : Field} (member : other ∈ done)
    (set name : Nat) :
    (labelSets[set]? = some other.labels ∧ names[name]? = some other.name) ↔
      series.labelSets[set]? = some other.labels ∧ series.names[name]? = some other.name := by
  have inSets : other.labels ∈ series.labelSets := by
    rw [numbers.labelSets, List.mem_eraseDups]
    exact List.mem_map_of_mem member
  have inNames : other.name ∈ series.names := by
    rw [numbers.names, List.mem_eraseDups]
    exact List.mem_map_of_mem member
  rw [getElem?_iff_of_longer keptSets setsOnce inSets,
    getElem?_iff_of_longer keptNames namesOnce inNames]

/-- A field with a place of its own is numbered. -/
theorem add_of_not_mem (numbers : series.Numbers done) (free : field.place ∉ done.map Field.place) :
    ∃ after, series.add field = .ok after ∧ after.Numbers (done ++ [field]) := by
  obtain ⟨named, atName, keptNames⟩ := positionOf_spec numbers.names field.name
  obtain ⟨labelled, atSet, keptSets⟩ := positionOf_spec numbers.labelSets field.labels
  rw [add]
  generalize positionOf series.names field.name = names at *
  generalize positionOf series.labelSets field.labels = sets at *
  have namesOnce : names.2.Nodup := named ▸ nodup_eraseDups _
  have setsOnce : sets.2.Nodup := labelled ▸ nodup_eraseDups _
  have kept := fun other (member : other ∈ done) set name =>
    numbers.place_iff_of_longer keptSets keptNames setsOnce namesOnce member set name
  have alone : ∀ other ∈ done,
      ¬(sets.2[sets.1]? = some other.labels ∧ names.2[names.1]? = some other.name) := by
    rintro other member ⟨labels, name⟩
    rw [atSet] at labels
    rw [atName] at name
    have same : other.place = field.place :=
      Prod.ext (Option.some.inj labels).symm (Option.some.inj name).symm
    exact free (same ▸ List.mem_map_of_mem member)
  have missing : series.field? sets.1 names.1 = none := by
    rw [Option.eq_none_iff_forall_ne_some]
    intro other found
    obtain ⟨member, there⟩ := (numbers.field? _ _ other).1 found
    exact alone other member ((kept other member _ _).2 there)
  simp only [missing]
  refine ⟨_, rfl, ?_, ?_, ?_, fun set name other => ?_⟩
  · simpa using named
  · simpa using labelled
  · simp [numbers.keys]
  · have there : sets.2[set]? = some field.labels ∧ names.2[name]? = some field.name ↔
        (set, name) = (sets.1, names.1) := by
      rw [getElem?_iff_of_nodup setsOnce atSet, getElem?_iff_of_nodup namesOnce atName, Prod.mk.injEq]
    rw [List.mem_append, List.mem_singleton]
    by_cases here : (set, name) = (sets.1, names.1)
    · obtain ⟨rfl, rfl⟩ := Prod.mk.inj here
      rw [NumberedSeries.field?, List.lookup_cons_self, Option.some.injEq]
      constructor
      · rintro rfl
        exact ⟨.inr rfl, atSet, atName⟩
      · rintro ⟨member | same, place⟩
        · exact absurd place (alone other member)
        · exact same.symm
    · have before : List.lookup (set, name) (((sets.1, names.1), field) :: series.fields) =
          series.field? set name := lookup_cons_of_ne here
      rw [NumberedSeries.field?, before, numbers.field?]
      constructor
      · rintro ⟨member, place⟩
        exact ⟨.inl member, (kept other member set name).2 place⟩
      · rintro ⟨member | rfl, place⟩
        · exact ⟨member, (kept other member set name).1 place⟩
        · exact absurd (there.1 place) here

/-- Fields are numbered one after the other, up to the first one that comes twice. -/
theorem foldlM_add (numbers : series.Numbers done) {seen : List Field}
    (same : ∀ field, field ∈ seen ↔ field ∈ done) (fields : List Field) :
    match Field.firstRepeated? seen fields with
    | some field => fields.foldlM add series =
        .error (.duplicateField (field.name ++ " " ++ field.labels.text))
    | none => ∃ after, fields.foldlM add series = .ok after ∧ after.Numbers (done ++ fields) := by
  induction fields generalizing series done seen with
  | nil => exact ⟨series, rfl, by rwa [List.append_nil]⟩
  | cons field rest ih =>
    have known : seen.any (·.sameSeries field) = true ↔ field.place ∈ done.map Field.place := by
      rw [List.any_eq_true, List.mem_map]
      exact exists_congr fun other => and_congr (same other) (Field.sameSeries_iff other field)
    rw [Field.firstRepeated?, List.foldlM_cons]
    by_cases taken : seen.any (·.sameSeries field) = true
    · rw [if_pos taken, add_of_mem numbers (known.1 taken)]
      rfl
    · obtain ⟨after, added, more⟩ := add_of_not_mem numbers (fun member => taken (known.2 member))
      have both : ∀ other, other ∈ field :: seen ↔ other ∈ done ++ [field] := by
        intro other
        rw [List.mem_cons, List.mem_append, List.mem_singleton, same, or_comm]
      have later := ih more both
      rw [if_neg taken, added]
      rw [List.append_assoc, List.singleton_append] at later
      exact later

end NumberedSeries

/-! ## Types of the new columns -/

namespace SeriesGrid

variable {grid : SeriesGrid} {fields : List Field} {name : String} {type : FieldType}

/-- With places of their own, the field of a name and a label set is the one that has both. -/
theorem field?_eq_some_iff (distinct : (fields.map Field.place).Nodup) {labels : Labels}
    {field : Field} : (ofFields fields).field? name labels = some field ↔
      field ∈ fields ∧ field.name = name ∧ field.labels = labels := by
  constructor
  · intro found
    have place := List.find?_some found
    simp only [Bool.and_eq_true, beq_iff_eq] at place
    exact ⟨List.mem_of_find?_eq_some found, place⟩
  · rintro ⟨member, rfl, rfl⟩
    have there : ((ofFields fields).field? field.name field.labels).isSome := by
      rw [SeriesGrid.field?, List.find?_isSome]
      exact ⟨field, member, by simp⟩
    obtain ⟨other, found⟩ := Option.isSome_iff_exists.1 there
    have place := List.find?_some found
    simp only [Bool.and_eq_true, beq_iff_eq] at place
    have same : other = field := List.inj_on_of_nodup_map distinct (List.mem_of_find?_eq_some found)
      member (Prod.ext place.2 place.1)
    rw [found, same]

/-- The column of a name has the kind of all its fields, and allows nulls when one of them does or some
label set has none. -/
structure TypedAs (grid : SeriesGrid) (name : String) (type : FieldType) : Prop where
  kind : ∀ labels ∈ grid.labelSets, ∀ field, grid.field? name labels = some field →
    field.type.kind = type.kind
  nullable : type.nullable = true ↔ ∃ labels ∈ grid.labelSets,
    ∀ field, grid.field? name labels = some field → field.type.nullable = true

theorem agreeOnKind_eq_ok_iff {kind : Kind} {fields : List Field} :
    agreeOnKind name kind fields = .ok () ↔ ∀ field ∈ fields, field.type.kind = kind := by
  induction fields with
  | nil => simp [agreeOnKind]
  | cons field rest ih =>
    by_cases same : field.type.kind = kind <;> simp [agreeOnKind, same, ih]

/-- The fields of a name, as they are found under the label sets. -/
private theorem mem_found {field : Field} :
    field ∈ (grid.labelSets.map (grid.field? name)).filterMap id ↔
      ∃ labels ∈ grid.labelSets, grid.field? name labels = some field := by
  simp

theorem typedAs_of_columnType (decided : grid.columnType name = .ok type) :
    grid.TypedAs name type := by
  unfold columnType at decided
  simp only at decided
  split at decided
  next => cases decided
  next first rest found =>
    obtain ⟨⟨⟩, agree, decided⟩ := bind_eq_ok_iff.1 decided
    cases decided
    refine ⟨fun labels inSets field here => ?_, ?_⟩
    · have member := mem_found.2 ⟨labels, inSets, here⟩
      rw [found] at member
      rcases List.mem_cons.1 member with rfl | inRest
      · rfl
      · exact agreeOnKind_eq_ok_iff.1 agree field inRest
    · rw [List.any_map, List.any_eq_true]
      refine exists_congr fun labels => and_congr_right fun _ => ?_
      rw [Function.comp_apply]
      cases grid.field? name labels <;> simp

/-- A name has a column when it has a field and all its fields are of one kind. -/
theorem exists_columnType_iff (occurs : ∃ labels ∈ grid.labelSets, (grid.field? name labels).isSome) :
    (∃ type, grid.columnType name = .ok type) ↔
      ∀ one ∈ grid.labelSets, ∀ other ∈ grid.labelSets, ∀ first second,
        grid.field? name one = some first → grid.field? name other = some second →
          first.type.kind = second.type.kind := by
  constructor
  · rintro ⟨type, decided⟩ one inSets other alsoIn first second atOne atOther
    have typed := typedAs_of_columnType decided
    rw [typed.kind one inSets first atOne, typed.kind other alsoIn second atOther]
  · intro agree
    unfold columnType
    simp only
    split
    next none =>
      obtain ⟨labels, inSets, there⟩ := occurs
      obtain ⟨field, here⟩ := Option.isSome_iff_exists.1 there
      have member := mem_found.2 ⟨labels, inSets, here⟩
      rw [none] at member
      cases member
    next first rest found =>
      have kinds : ∀ field ∈ rest, field.type.kind = first.type.kind := by
        intro field inRest
        obtain ⟨one, inSets, atOne⟩ := mem_found.1 (by rw [found]; exact .tail _ inRest)
        obtain ⟨other, alsoIn, atOther⟩ := mem_found.1 (by rw [found]; exact .head _)
        exact agree one inSets other alsoIn field first atOne atOther
      exact ⟨_, bind_eq_ok_iff.2 ⟨(), agreeOnKind_eq_ok_iff.2 kinds, rfl⟩⟩

end SeriesGrid

namespace NumberedSeries

variable {series : NumberedSeries} {fields : List Field} {grid : SeriesGrid} {name : String}
variable {position : Nat}

/-- Two numbers lead to the field of the label set and the name that have them. -/
theorem field?_eq (numbers : series.Numbers fields) (distinct : (fields.map Field.place).Nodup)
    {set : Nat} {labels : Labels} (atSet : series.labelSets[set]? = some labels)
    (atName : series.names[position]? = some name) :
    series.field? set position = (SeriesGrid.ofFields fields).field? name labels := by
  apply Option.ext
  intro field
  rw [numbers.field?, SeriesGrid.field?_eq_some_iff distinct, atSet, atName, Option.some.injEq,
    Option.some.injEq]
  exact ⟨fun ⟨member, labels, name⟩ => ⟨member, name.symm, labels.symm⟩,
    fun ⟨member, name, labels⟩ => ⟨member, labels.symm, name.symm⟩⟩

/-- From a first field on, the others are compared with its kind. -/
theorem decideType_some {rest : List Labels} {set : Nat} (kind : Kind) (nullable : Bool)
    (each : ∀ index labels, rest[index]? = some labels →
      series.field? (set + index) position = grid.field? name labels) :
    series.decideType position name set rest.length (some kind) nullable =
      (SeriesGrid.agreeOnKind name kind ((rest.map (grid.field? name)).filterMap id)).bind fun _ =>
        .ok ⟨kind, nullable || (rest.map (grid.field? name)).any
          fun field => (field.map (·.type.nullable)).getD true⟩ := by
  induction rest generalizing set nullable with
  | nil => simp [decideType, SeriesGrid.agreeOnKind, Except.bind]
  | cons labels rest ih =>
    have here := each 0 labels rfl
    rw [Nat.add_zero] at here
    have later : ∀ index labels, rest[index]? = some labels →
        series.field? (set + 1 + index) position = grid.field? name labels := by
      intro index labels there
      rw [Nat.add_assoc, Nat.add_comm 1]
      exact each (index + 1) labels there
    rw [List.length_cons, decideType, here]
    cases found : grid.field? name labels with
    | none =>
      simp only
      rw [ih true later]
      simp [found]
    | some field =>
      by_cases same : field.type.kind = kind
      · simp only
        rw [if_neg (by simp [same]), ih _ later]
        simp [found, SeriesGrid.agreeOnKind, same, Bool.or_assoc]
      · simp only
        rw [if_pos (Ne.symm same)]
        simp [found, SeriesGrid.agreeOnKind, same, Except.bind]

/-- Going over the label sets decides the type of a column as looking at all its fields does. -/
theorem decideType_none {rest : List Labels} {set : Nat} (nullable : Bool)
    (each : ∀ index labels, rest[index]? = some labels →
      series.field? (set + index) position = grid.field? name labels) :
    series.decideType position name set rest.length none nullable =
      match (rest.map (grid.field? name)).filterMap id with
      | [] => .error (.pivot (.noSource name))
      | first :: others =>
        (SeriesGrid.agreeOnKind name first.type.kind others).bind fun _ =>
          .ok ⟨first.type.kind, nullable || (rest.map (grid.field? name)).any
            fun field => (field.map (·.type.nullable)).getD true⟩ := by
  induction rest generalizing set nullable with
  | nil => rfl
  | cons labels rest ih =>
    have here := each 0 labels rfl
    rw [Nat.add_zero] at here
    have later : ∀ index labels, rest[index]? = some labels →
        series.field? (set + 1 + index) position = grid.field? name labels := by
      intro index labels there
      rw [Nat.add_assoc, Nat.add_comm 1]
      exact each (index + 1) labels there
    rw [List.length_cons, decideType, here]
    cases found : grid.field? name labels with
    | none =>
      simp only
      rw [ih true later]
      simp [found]
    | some field =>
      simp only
      rw [decideType_some _ _ later]
      simp [found, Bool.or_assoc]

private theorem decideTypes_from (numbers : series.Numbers fields)
    (distinct : (fields.map Field.place).Nodup) (rest : List String) (position : Nat)
    (known : ∀ index name, rest[index]? = some name → series.names[position + index]? = some name) :
    series.decideTypes position rest = rest.mapM (SeriesGrid.ofFields fields).columnType := by
  induction rest generalizing position with
  | nil => rfl
  | cons name rest ih =>
    have each : ∀ index labels, series.labelSets[index]? = some labels →
        series.field? (0 + index) position = (SeriesGrid.ofFields fields).field? name labels := by
      intro index labels atSet
      rw [Nat.zero_add]
      exact field?_eq numbers distinct atSet (known 0 name rfl)
    have later := ih (position + 1) fun index other there => by
      rw [Nat.add_assoc, Nat.add_comm 1]
      exact known (index + 1) other there
    have sets : (SeriesGrid.ofFields fields).labelSets = series.labelSets := numbers.labelSets.symm
    have decided : series.decideType position name 0 series.labelSets.length none false =
        (SeriesGrid.ofFields fields).columnType name := by
      rw [decideType_none false each, SeriesGrid.columnType, sets]
      simp only [Bool.false_or]
      rfl
    rw [decideTypes, List.mapM_cons, decided, later]

/-- The types of the columns are decided name by name. -/
theorem decideTypes_eq (numbers : series.Numbers fields)
    (distinct : (fields.map Field.place).Nodup) :
    series.decideTypes 0 series.names =
      (SeriesGrid.ofFields fields).names.mapM (SeriesGrid.ofFields fields).columnType := by
  have names : (SeriesGrid.ofFields fields).names = series.names := numbers.names.symm
  rw [names]
  apply decideTypes_from numbers distinct
  intro index name there
  rwa [Nat.zero_add]

end NumberedSeries

end Columnar
