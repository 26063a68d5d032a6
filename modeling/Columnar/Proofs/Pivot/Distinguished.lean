import Columnar.Proofs.Pivot.LongOf
import Columnar.Proofs.Pivot.RoundTrip

/-! Whether the series of a wide frame can be told apart. The texts of the factors are kept under the
names of the factors, and of several texts under one name the last one stays: combinations of texts that
differ only where a name comes again are given the same labels. Then two fields are the same series, and
the wide frame cannot be made long. Nothing else makes two fields the same. -/
namespace Columnar

namespace Labels

/-- Two combinations of texts differ only under names that come again later. -/
def DifferOnlyHidden (names first second : List String) : Prop :=
  ∀ index : Nat, first[index]? ≠ second[index]? →
    ∃ later : Nat, index < later ∧ names[later]? = names[index]?

variable {names first second : List String}

theorem isSome_lookup_reverse_zip (size : first.length = names.length) (asked : String) :
    ((names.zip first).reverse.lookup asked).isSome = true ↔ asked ∈ names := by
  rw [← isSome_get?_ofFactors size asked, get?_withFactors]
  exact iff_of_eq (congrArg (Option.isSome · = true) Option.or_none.symm)

theorem eq_of_or_eq {α : Type} {one other x y : Option α} (both : one.isSome = other.isSome)
    (same : one.or x = other.or y) : one = other := by
  cases one <;> cases other <;> simp_all

/-- Both combinations have a last text for the same names. -/
theorem isSome_lookup_eq (firstSize : first.length = names.length)
    (secondSize : second.length = names.length) (asked : String) :
    ((names.zip first).reverse.lookup asked).isSome =
      ((names.zip second).reverse.lookup asked).isSome :=
  Bool.eq_iff_iff.2 ((isSome_lookup_reverse_zip firstSize asked).trans
    (isSome_lookup_reverse_zip secondSize asked).symm)

theorem lookup_reverse_cons (name text asked : String) (pairs : List (String × String)) :
    ((name, text) :: pairs).reverse.lookup asked =
      (pairs.reverse.lookup asked).or (if asked = name then some text else none) := by
  rw [List.reverse_cons, List.lookup_append]
  by_cases same : asked = name <;> simp [same]

theorem differOnlyHidden_cons {name text other : String} :
    DifferOnlyHidden (name :: names) (text :: first) (other :: second) ↔
      (text ≠ other → name ∈ names) ∧ DifferOnlyHidden names first second := by
  constructor
  · intro hidden
    constructor
    · intro differ
      obtain ⟨later, after, again⟩ := hidden 0 (by simpa using differ)
      obtain ⟨place, rfl⟩ := Nat.exists_eq_add_of_lt after
      exact List.mem_of_getElem? (by simpa using again)
    · intro index differ
      obtain ⟨later, after, again⟩ := hidden (index + 1) (by simpa using differ)
      obtain ⟨place, rfl⟩ := Nat.exists_eq_add_of_lt after
      exact ⟨index + place + 1, by omega, by simpa [Nat.add_right_comm] using again⟩
  · rintro ⟨here, hidden⟩ index differ
    cases index with
    | zero =>
      obtain ⟨place, again⟩ := List.mem_iff_getElem?.1 (here (by simpa using differ))
      exact ⟨place + 1, Nat.succ_pos _, by simpa using again⟩
    | succ index =>
      obtain ⟨later, after, again⟩ := hidden index (by simpa using differ)
      exact ⟨later + 1, Nat.succ_lt_succ after, by simpa using again⟩

/-- Under each name the last text is the same when the texts that differ are hidden. -/
theorem lookup_reverse_eq_iff (firstSize : first.length = names.length)
    (secondSize : second.length = names.length) :
    (∀ asked, (names.zip first).reverse.lookup asked = (names.zip second).reverse.lookup asked) ↔
      DifferOnlyHidden names first second := by
  induction names generalizing first second with
  | nil =>
    rw [List.length_nil, List.length_eq_zero_iff] at firstSize secondSize
    subst firstSize secondSize
    exact ⟨fun _ index differ => absurd rfl differ, fun _ _ => rfl⟩
  | cons name rest ih =>
    obtain ⟨text, first, rfl⟩ := List.exists_cons_of_length_eq_add_one firstSize
    obtain ⟨other, second, rfl⟩ := List.exists_cons_of_length_eq_add_one secondSize
    have restSize : first.length = rest.length := by simpa using firstSize
    have alsoSize : second.length = rest.length := by simpa using secondSize
    have found := isSome_lookup_reverse_zip restSize
    have both := isSome_lookup_eq restSize alsoSize
    simp only [List.zip_cons_cons, lookup_reverse_cons]
    rw [differOnlyHidden_cons, ← ih restSize alsoSize]
    constructor
    · intro same
      have later : ∀ asked, (rest.zip first).reverse.lookup asked =
          (rest.zip second).reverse.lookup asked :=
        fun asked => eq_of_or_eq (both asked) (same asked)
      refine ⟨fun differ => (found name).1 ?_, later⟩
      by_contra absent
      rw [Bool.not_eq_true, Option.isSome_eq_false_iff, Option.isNone_iff_eq_none] at absent
      have here := same name
      rw [← later, absent, if_pos rfl, if_pos rfl] at here
      exact differ (Option.some.inj here)
    · rintro ⟨once, same⟩ asked
      rw [← same asked]
      by_cases here : asked = name
      · subst here
        by_cases differ : text = other
        · rw [differ]
        · obtain ⟨_, last⟩ := Option.isSome_iff_exists.1 ((found asked).2 (once differ))
          rw [last, Option.some_or, Option.some_or]
      · rw [if_neg here, if_neg here]

/-- Overlaid on the same labels, two combinations of texts give the same labels when the texts that
differ are hidden. -/
theorem withFactors_eq_iff (labels : Labels) (firstSize : first.length = names.length)
    (secondSize : second.length = names.length) :
    labels.withFactors names first = labels.withFactors names second ↔
      DifferOnlyHidden names first second := by
  rw [← lookup_reverse_eq_iff firstSize secondSize]
  constructor
  · intro same asked
    have here : (labels.withFactors names first).get? asked =
        (labels.withFactors names second).get? asked := by rw [same]
    rw [get?_withFactors, get?_withFactors] at here
    exact eq_of_or_eq (isSome_lookup_eq firstSize secondSize asked) here
  · intro same
    apply ext_get?
    intro asked
    rw [get?_withFactors, get?_withFactors, same asked]

end Labels

theorem Field.mem_of_firstRepeated? {seen fields : List Field} {field : Field}
    (repeated : firstRepeated? seen fields = some field) : field ∈ fields := by
  induction fields generalizing seen with
  | nil => cases repeated
  | cons first rest ih =>
    rw [firstRepeated?] at repeated
    split at repeated
    next =>
      cases repeated
      exact List.mem_cons_self
    next => exact List.mem_cons_of_mem _ (ih repeated)

namespace Frame

/-- Two rows of a frame whose factors differ, but only in those whose name a later factor has, too. -/
structure Hides (long : Frame) (first second : Nat) : Prop where
  differ : long.factorsAt first ≠ long.factorsAt second
  hidden : Labels.DifferOnlyHidden (long.factorFields.map Field.name) (long.factorsAt first)
    (long.factorsAt second)

/-- Among the first rows of a frame, two hide what differs. -/
def HidesAmong (long : Frame) (rows : Nat) : Prop :=
  ∃ first < rows, ∃ second < rows, long.Hides first second

/-- No two observed fields of a frame are one series. -/
def SeriesApart (wide : Frame) : Prop :=
  ∀ (first second : Nat) (one other : Field), wide.valueFields[first]? = some one →
    wide.valueFields[second]? = some other → one.sameSeries other = true → first = second

variable {long wide : Frame} {fill : Option Fill} {time : Field} {rows : Nat}
variable {times : List Instant} {series : List Field}

theorem seriesApart_iff : wide.SeriesApart ↔ (wide.valueFields.map Field.place).Nodup := by
  rw [places_nodup_iff]
  simp only [SeriesApart, Field.sameSeries, Bool.and_eq_true, beq_iff_eq, and_imp]

/-- Nothing is hidden among factors whose names differ. -/
theorem not_hides_of_nodup (distinct : (long.factorFields.map Field.name).Nodup)
    (first second : Nat) : ¬long.Hides first second := by
  rintro ⟨differ, hidden⟩
  refine differ (List.ext_getElem? fun index => ?_)
  by_contra here
  obtain ⟨later, after, again⟩ := hidden index here
  have inside : index < (long.factorFields.map Field.name).length := by
    by_contra beyond
    rw [List.length_map] at beyond
    simp [factorsAt, Nat.not_lt.1 beyond] at here
  exact absurd ((List.getElem?_inj inside distinct).1 again.symm) (Nat.ne_of_lt after)

namespace Pivots

variable (pivots : long.Pivots fill time rows times series)

include pivots

/-- Where the field of a combination and a source has its place. -/
theorem places_of_origins : series.map Field.place =
    (combinations long times ×ˢ long.valueFields).map fun origin =>
      (origin.2.labels.withFactors (long.factorFields.map Field.name) origin.1, origin.2.name) := by
  apply map_eq_of_forall₂
  apply pivots.series.imp
  intro origin field made
  obtain ⟨named, labels, -⟩ := Field.ofSeries_parts made
  rw [Field.place, named, labels]

/-- The fields of a wide frame have places of their own unless two rows hide what differs. -/
theorem places_nodup_iff_not_hides (once : (long.valueFields.map Field.name).Nodup) :
    (series.map Field.place).Nodup ↔
      ¬long.HidesAmong rows := by
  have origins : (combinations long times ×ˢ long.valueFields).Nodup :=
    combinations_nodup.product once.of_map
  rw [pivots.places_of_origins, List.nodup_map_iff_inj_on origins]
  have known := pivots.distinctFactors.exact
  constructor
  · rintro distinct ⟨first, inFirst, second, inSecond, differ, hidden⟩
    obtain ⟨source, others, some⟩ := List.exists_cons_of_ne_nil pivots.isSeries.values
    have isValue : source ∈ long.valueFields := by simp [some]
    have member : ∀ row < rows,
        (long.factorsAt row, source) ∈ combinations long times ×ˢ long.valueFields :=
      fun row inside => List.mem_product.2 ⟨(known _).2 ⟨row, inside, rfl⟩, isValue⟩
    have labels := (Labels.withFactors_eq_iff source.labels (by simp [factorsAt])
      (by simp [factorsAt])).2 hidden
    have same := distinct _ (member first inFirst) _ (member second inSecond)
      (Prod.ext labels rfl)
    exact differ (Prod.mk.inj same).1
  · rintro open_ ⟨factors, source⟩ inFirst ⟨others, other⟩ inSecond same
    obtain ⟨inFactors, isValue⟩ := List.mem_product.1 inFirst
    obtain ⟨inOthers, alsoValue⟩ := List.mem_product.1 inSecond
    obtain ⟨labels, named⟩ := Prod.mk.inj same
    obtain rfl : source = other := List.inj_on_of_nodup_map once isValue alsoValue named
    obtain ⟨first, inRows, rfl⟩ := (known _).1 inFactors
    obtain ⟨second, alsoRows, rfl⟩ := (known _).1 inOthers
    have hidden := (Labels.withFactors_eq_iff source.labels (by simp [factorsAt])
      (by simp [factorsAt])).1 labels
    by_contra differ
    refine open_ ⟨first, inRows, second, alsoRows, fun equal => differ ?_, hidden⟩
    rw [equal]

section Made

variable (made : wide.fields = time.ofSlots (Instant.distinct times) :: series)

include made

theorem inRoles : wide.InRoles (time.ofSlots (Instant.distinct times)) series [] :=
  ⟨by rw [made, List.append_nil], rfl, pivots.observed, List.forall_mem_nil _⟩

omit made in
theorem series_ne_nil : series ≠ [] := by
  intro none
  have lengths := pivots.series.length_eq
  rw [List.length_product, none, List.length_nil] at lengths
  have combined := List.length_pos_iff.2 pivots.combinations_ne_nil
  have valued := List.length_pos_iff.2 pivots.isSeries.values
  exact absurd lengths (Nat.ne_of_gt (Nat.mul_pos combined valued))

theorem rowCount_wide : wide.rowCount = .ok (Instant.distinct times).length := by
  refine rowCount_eq_ok_iff.2 ⟨by simp [made], fun field member => ?_⟩
  rw [made] at member
  rcases List.mem_cons.1 member with rfl | member
  · exact List.length_map ..
  · exact pivots.sizes field member

omit pivots made in
theorem times_ofSlots (time : Field) (slots : List Instant) :
    (time.ofSlots slots).times = .ok slots := by
  rw [Field.times_eq_ok_iff]
  simp [Field.ofSlots, Field.withColumn, Column.values, Cells.values, Function.comp_def]

/-- When the fields have places of their own, the wide frame can be made long. -/
theorem exists_gather_of_nodup (once : (long.valueFields.map Field.name).Nodup)
    (distinct : (series.map Field.place).Nodup) : ∃ back, wide.gather = .ok back := by
  have roles := pivots.inRoles made
  have parts : wide.Unpivots (time.ofSlots (Instant.distinct times))
      (Instant.distinct times).length (Instant.distinct times) :=
    ⟨roles.isSeries pivots.series_ne_nil, roles.factorFields_eq, pivots.rowCount_wide made,
      times_ofSlots .., by rwa [roles.valueFields_eq]⟩
  obtain ⟨numbered, ran, numbers⟩ := parts.exists_numbered
  have kinds : ∀ one ∈ wide.valueFields, ∀ other ∈ wide.valueFields, one.name = other.name →
      one.type.kind = other.type.kind := by
    rw [roles.valueFields_eq]
    intro one inSeries other alsoSeries named
    obtain ⟨first, inFirst, madeFirst⟩ := exists_left_of_forall₂ pivots.series inSeries
    obtain ⟨second, inSecond, madeSecond⟩ := exists_left_of_forall₂ pivots.series alsoSeries
    obtain ⟨oneName, -, oneType⟩ := Field.ofSeries_parts madeFirst
    obtain ⟨otherName, -, otherType⟩ := Field.ofSeries_parts madeSecond
    have same : first.2 = second.2 := List.inj_on_of_nodup_map once (List.mem_product.1 inFirst).2
      (List.mem_product.1 inSecond).2 (oneName.symm.trans (named.trans otherName))
    rw [oneType, otherType, same]
  obtain ⟨types, decided⟩ := (exists_decided_iff parts.distinct).2 kinds
  obtain ⟨_, -, gathered⟩ := exists_gather parts numbers decided ran
  exact ⟨_, gathered⟩

/-- When two fields share a place, the wide frame cannot be made long. -/
theorem gather_eq_error_of_not_nodup (shared : ¬(series.map Field.place).Nodup) :
    ∃ field ∈ wide.valueFields, wide.gather =
      .error (.duplicateField (field.name ++ " " ++ field.labels.text)) := by
  have roles := pivots.inRoles made
  have isSeries := roles.isSeries pivots.series_ne_nil
  have layout := isSeries.kind_eq_wide_iff.2 roles.factorFields_eq
  have numbered := NumberedSeries.foldlM_add NumberedSeries.numbers_none (fun _ => Iff.rfl)
    wide.valueFields
  cases repeated : Field.firstRepeated? [] wide.valueFields with
  | none =>
    have distinct := (Field.places_of_firstRepeated? repeated).1
    rw [roles.valueFields_eq] at distinct
    exact absurd distinct shared
  | some field =>
    rw [repeated] at numbered
    refine ⟨field, Field.mem_of_firstRepeated? repeated, ?_⟩
    rw [gather_of_layout layout isSeries, pivots.rowCount_wide made, times_ofSlots, numbered]
    rfl

end Made

end Pivots

/-- For every fill: in the wide frame of a long one whose observed fields have names of their own, two
fields are one series exactly when two rows of the long frame hide what differs, and then the wide frame
is refused for a field that comes twice, while otherwise it is made long again. Nothing is hidden when
the factors have names of their own, too. -/
theorem scatter_seriesApart_iff (pivoted : long.scatter fill = .ok wide)
    (once : (long.valueFields.map Field.name).Nodup) :
    ∃ rows, long.rowCount = .ok rows ∧
      (wide.SeriesApart ↔ ¬long.HidesAmong rows) ∧
      ((∃ back, wide.gather = .ok back) ↔ ¬long.HidesAmong rows) ∧
      ((∃ field ∈ wide.valueFields, wide.gather =
        .error (.duplicateField (field.name ++ " " ++ field.labels.text))) ↔ long.HidesAmong rows) ∧
      ((long.factorFields.map Field.name).Nodup → ¬long.HidesAmong rows) := by
  rw [scatter_eq_longToWide] at pivoted
  obtain ⟨time, rows, times, series, pivots, isWide⟩ := pivots_of_longToWide pivoted
  have made : wide.fields = time.ofSlots (Instant.distinct times) :: series := by rw [isWide]
  have apart := pivots.places_nodup_iff_not_hides once
  have long_of_apart := fun apart_ => pivots.exists_gather_of_nodup made once (apart.2 apart_)
  have refused_of_hides := fun hides =>
    pivots.gather_eq_error_of_not_nodup made (apart.not_left.2 hides)
  refine ⟨rows, pivots.counted, ?_, ⟨?_, long_of_apart⟩, ⟨?_, refused_of_hides⟩, ?_⟩
  · rw [seriesApart_iff, (pivots.inRoles made).valueFields_eq, apart]
  · rintro ⟨back, gathered⟩ hides
    obtain ⟨field, -, refused⟩ := refused_of_hides hides
    rw [gathered] at refused
    cases refused
  · rintro ⟨field, -, refused⟩
    by_contra apart_
    obtain ⟨back, gathered⟩ := long_of_apart apart_
    rw [gathered] at refused
    cases refused
  · rintro distinct ⟨first, -, second, -, hides⟩
    exact not_hides_of_nodup distinct first second hides

/-- Loads of two hosts of one zone, with the zone under the name of the host. -/
def zonedLoads : Frame where
  name := "loads"
  fields :=
    [⟨"time", Labels.empty, none, ⟨⟨.time, false⟩, ⟨[Cell.of Instant.epoch, Cell.of Instant.epoch]⟩⟩⟩,
      ⟨"host", Labels.empty, none, ⟨⟨.string, false⟩, ⟨[Cell.of "a", Cell.of "b"]⟩⟩⟩,
      ⟨"host", Labels.empty, none, ⟨⟨.string, false⟩, ⟨[Cell.of "north", Cell.of "north"]⟩⟩⟩,
      ⟨"load", Labels.empty, none, ⟨⟨.int8, false⟩, ⟨[Cell.of (1 : Int8), Cell.of (2 : Int8)]⟩⟩⟩]

theorem zonedLoads_hidesAmong : zonedLoads.HidesAmong 2 := by
  refine ⟨0, by decide, 1, by decide, by decide +kernel, fun index differ => ?_⟩
  match index with
  | 0 => exact ⟨1, by decide, by decide +kernel⟩
  | 1 => exact absurd (by decide +kernel) differ
  | index + 2 => exact absurd rfl differ

theorem scatter_zonedLoads : ∃ wide, zonedLoads.scatter (some .previous) = .ok wide ∧
    (zonedLoads.valueFields.map Field.name).Nodup ∧ zonedLoads.HidesAmong 2 ∧
    ¬wide.SeriesApart := by
  have accepted : ∃ wide, zonedLoads.scatter (some .previous) = .ok wide := by
    rw [scatter_eq_longToWide]
    exact ⟨_, rfl⟩
  have once : (zonedLoads.valueFields.map Field.name).Nodup := by decide +kernel
  obtain ⟨wide, pivoted⟩ := accepted
  obtain ⟨rows, counted, apart, -⟩ := scatter_seriesApart_iff pivoted once
  have two : zonedLoads.rowCount = .ok 2 := rfl
  obtain rfl : 2 = rows := Except.ok.inj (two.symm.trans counted)
  exact ⟨wide, pivoted, once, zonedLoads_hidesAmong, fun each => apart.1 each zonedLoads_hidesAmong⟩

/-- Two hosts of one zone share one series, which cannot be made long. -/
theorem zonedLoads_indistinct : (zonedLoads.valueFields.map Field.name).Nodup ∧
    ∃ wide, zonedLoads.scatter none = .ok wide ∧ ¬wide.SeriesApart ∧
      wide.gather = .error (.duplicateField "load \x7bhost=north\x7d") := by
  have accepted : ∃ wide, zonedLoads.longToWide none = .ok wide := ⟨_, rfl⟩
  obtain ⟨wide, pivoted⟩ := accepted
  have places : (zonedLoads.longToWide none).map (fun wide => wide.valueFields.map Field.place) =
      .ok (List.replicate 2 (Labels.ofPairs [("host", "north")], "load")) := by rfl
  rw [pivoted] at places
  have shared : wide.valueFields.map Field.place = _ := Except.ok.inj places
  obtain ⟨time, rows, times, series, pivots, isWide⟩ := pivots_of_longToWide pivoted
  have made : wide.fields = time.ofSlots (Instant.distinct times) :: series := by rw [isWide]
  have repeated : ¬(series.map Field.place).Nodup := by
    rw [← (pivots.inRoles made).valueFields_eq, shared]
    decide
  obtain ⟨field, member, refused⟩ := pivots.gather_eq_error_of_not_nodup made repeated
  have atPlace : field.place ∈ wide.valueFields.map Field.place := List.mem_map_of_mem member
  rw [shared] at atPlace
  obtain ⟨labels, name⟩ := Prod.mk.inj (List.eq_of_mem_replicate atPlace)
  rw [labels, name] at refused
  refine ⟨by decide +kernel, wide, (scatter_eq_longToWide ..).trans pivoted, fun apart => ?_, refused⟩
  rw [seriesApart_iff, (pivots.inRoles made).valueFields_eq] at apart
  exact repeated apart

end Frame

end Columnar
