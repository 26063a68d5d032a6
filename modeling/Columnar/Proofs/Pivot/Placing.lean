import Columnar.Pivot.Scattering
import Columnar.Proofs.Pivot.Rows
import Columnar.Proofs.Time.Order

/-! Where the rows of a long frame belong. An instant is found among the slots at the one position where
it stands, and the numbers given to the combinations of texts are their positions in the order in which
they are first met. -/
namespace Columnar

namespace Instant

variable {slots : List Instant} {a b time : Instant} {first second : Nat}

/-- In ascending order the earlier instant stands first. -/
theorem lt_of_before (ascending : slots.Pairwise fun a b => a.before b = true)
    (atFirst : slots[first]? = some a) (atSecond : slots[second]? = some b)
    (earlier : a.before b = true) : first < second := by
  obtain ⟨inFirst, rfl⟩ := List.getElem?_eq_some_iff.1 atFirst
  obtain ⟨inSecond, rfl⟩ := List.getElem?_eq_some_iff.1 atSecond
  rcases Nat.lt_trichotomy first second with less | same | more
  · exact less
  · subst same
    exact absurd rfl (ne_of_before earlier)
  · have later := List.pairwise_iff_getElem.1 ascending second first inSecond inFirst more
    rw [before_iff] at earlier later
    omega

/-- Halving finds the position of every instant between the bounds. -/
theorem search_eq_some (ascending : slots.Pairwise fun a b => a.before b = true)
    {position low high : Nat} (here : slots[position]? = some time) (above : low ≤ position)
    (below : position < high) (bound : high ≤ slots.length) :
    search slots time low high = some position := by
  fun_induction search slots time low high with
  | case1 low high room missing =>
    have inside : (low + high) / 2 < slots.length := by omega
    rw [List.getElem?_eq_getElem inside] at missing
    cases missing
  | case2 low high room found =>
    obtain ⟨inside, atMiddle⟩ := List.getElem?_eq_some_iff.1 found
    obtain ⟨there, atPosition⟩ := List.getElem?_eq_some_iff.1 here
    have distinct : slots.Nodup := ascending.imp ne_of_before
    rw [distinct.getElem_inj_iff.1 (atMiddle.trans atPosition.symm)]
  | case3 low high room slot found other earlier ih =>
    have past := lt_of_before ascending found here earlier
    exact ih past below bound
  | case4 low high room slot found other notEarlier ih =>
    have atMost : time.atMost slot = true := by simpa [Instant.atMost] using notEarlier
    have earlier : time.before slot = true := before_of_atMost atMost fun same => other same.symm
    have past := lt_of_before ascending here found earlier
    exact ih above past (by omega)
  | case5 low high closed => omega

end Instant

namespace Combinations

variable {met : Combinations} {texts : List String} {seen : List (List String)}

/-- Every combination that has been met has a number, which is its position in the order of first
meeting. -/
structure Numbers (met : Combinations) (seen : List (List String)) : Prop where
  inOrder : met.inOrder = seen.eraseDups
  number : ∀ texts number, met.numbers.lookup texts = some number ↔
    met.inOrder[number]? = some texts

theorem numbers_none : Numbers {} [] := ⟨rfl, fun texts number => by simp⟩

/-- Numbering one more combination keeps the numbers that have been given. -/
theorem number_spec (numbers : met.Numbers seen) (texts : List String) :
    (met.number texts).2.Numbers (seen ++ [texts]) ∧
      (met.number texts).2.inOrder[(met.number texts).1]? = some texts ∧
      met.inOrder <+: (met.number texts).2.inOrder := by
  rw [number]
  split
  next number known =>
    have here := (numbers.number texts number).1 known
    refine ⟨⟨?_, numbers.number⟩, here, List.prefix_refl _⟩
    have member : texts ∈ seen := by
      rw [← List.mem_eraseDups, ← numbers.inOrder]
      exact List.mem_of_getElem? here
    rw [eraseDups_concat_of_mem member, numbers.inOrder]
  next unknown =>
    have absent : texts ∉ met.inOrder := by
      intro member
      obtain ⟨number, here⟩ := List.mem_iff_getElem?.1 member
      rw [(numbers.number texts number).2 here] at unknown
      cases unknown
    have notSeen : texts ∉ seen := by rwa [numbers.inOrder, List.mem_eraseDups] at absent
    have longer : met.inOrder ++ [texts] = (seen ++ [texts]).eraseDups := by
      rw [eraseDups_concat_of_not_mem notSeen, numbers.inOrder]
    have here : (met.inOrder ++ [texts])[met.inOrder.length]? = some texts := by simp
    refine ⟨⟨longer, fun asked number => ?_⟩, here, List.prefix_append ..⟩
    by_cases same : asked = texts
    · have once : (met.inOrder ++ [texts]).Nodup := longer ▸ nodup_eraseDups _
      rw [same, List.lookup_cons_self, Option.some.injEq, getElem?_iff_of_nodup once here, eq_comm]
    · have step : (met.inOrder ++ [texts])[number]? = some asked ↔
          met.inOrder[number]? = some asked := by
        by_cases inside : number < met.inOrder.length
        · rw [List.getElem?_append_left inside]
        · rw [List.getElem?_append_right (Nat.le_of_not_lt inside),
            List.getElem?_eq_none (Nat.le_of_not_lt inside)]
          cases rest : number - met.inOrder.length <;> simp [Ne.symm same]
      rw [lookup_cons_of_ne same, step]
      exact numbers.number asked number

end Combinations

/-- The texts of the factors in a row, when all of them have it. -/
theorem mapM_texts (factors : List Field) (row : Nat)
    (inside : ∀ field ∈ factors, row < field.column.size) :
    (factors.mapM fun field => (field.column.get row).map Value.text) =
      .ok (factors.map fun field => field.column.textAt row) := by
  rw [mapM_eq_ok_iff, List.forall₂_map_right_iff, List.forall₂_same]
  intro field member
  have bound : row < field.column.values.length := by
    rw [Column.length_values]
    exact inside field member
  rw [Column.get, Column.textAt, Column.get?_eq_values, List.getElem?_eq_getElem bound]
  rfl

/-- A place is that of an observation when its slot has the instant and its combination the texts. -/
structure RowPlace.Holds (slots : List Instant) (combinations : List (List String))
    (observation : Observation) (place : RowPlace) : Prop where
  slot : slots[place.slot]? = some observation.time
  combination : combinations[place.combination]? = some observation.factors

/-- The observations of the rows from one on. -/
def Observation.fromRow (factors : List Field) (row : Nat) (times : List Instant) :
    List Observation :=
  (times.zipIdx row).map fun pair => ⟨pair.1, factors.map fun field => field.column.textAt pair.2⟩

/-- Every row is placed where its observation belongs. -/
theorem placeRows_spec {factors : List Field} {slots times : List Instant} {row : Nat}
    {met : Combinations} {seen : List (List String)}
    (ascending : slots.Pairwise fun a b => a.before b = true) (known : ∀ time ∈ times, time ∈ slots)
    (inside : ∀ field ∈ factors, row + times.length ≤ field.column.size)
    (numbers : met.Numbers seen) :
    ∃ places after, placeRows factors slots row times met = .ok (places, after) ∧
      after.Numbers (seen ++ (Observation.fromRow factors row times).map Observation.factors) ∧
      met.inOrder <+: after.inOrder ∧
      List.Forall₂ (RowPlace.Holds slots after.inOrder) (Observation.fromRow factors row times)
        places := by
  induction times generalizing row met seen with
  | nil => exact ⟨[], met, rfl, by simpa [Observation.fromRow], List.prefix_refl _, .nil⟩
  | cons time rest ih =>
    obtain ⟨slot, atSlot⟩ := List.mem_iff_getElem?.1 (known time (by simp))
    have found : Instant.search slots time 0 slots.length = some slot :=
      Instant.search_eq_some ascending atSlot (Nat.zero_le _)
        (List.getElem?_eq_some_iff.1 atSlot).1 (Nat.le_refl _)
    have texts := mapM_texts factors row fun field member => by
      have enough := inside field member
      rw [List.length_cons] at enough
      omega
    obtain ⟨more, atNumber, kept⟩ :=
      Combinations.number_spec numbers (factors.map fun field => field.column.textAt row)
    obtain ⟨places, after, ran, numbered, later, holds⟩ :=
      @ih (row + 1) _ _ (fun other member => known other (by simp [member]))
        (fun field member => by
          have enough := inside field member
          rw [List.length_cons] at enough
          omega) more
    refine ⟨⟨slot, (met.number (factors.map fun field => field.column.textAt row)).1⟩ :: places, after,
      ?_, ?_, kept.trans later, .cons ⟨atSlot, ?_⟩ holds⟩
    · rw [placeRows, texts]
      simp only [bind, Except.bind, found, ran]
      rfl
    · simpa [Observation.fromRow] using numbered
    · obtain ⟨bound, there⟩ := List.getElem?_eq_some_iff.1 atNumber
      have longer := later.getElem bound
      rw [List.getElem?_eq_getElem (Nat.lt_of_lt_of_le bound later.length_le), ← longer, there]

namespace Frame

variable {frame : Frame} {time : Field} {rows : Nat} {times : List Instant}

/-- The observations of a frame are those from its first row on. -/
theorem fromRow_zero (counted : frame.rowCount = .ok rows) (series : frame.IsSeries time)
    (read : time.times = .ok times) :
    Observation.fromRow frame.factorFields 0 times = frame.observations times := by
  apply List.ext_getElem?
  intro row
  rw [observations_getElem? counted series read, observationAt?, timeAt?_eq series read,
    Observation.fromRow, List.getElem?_map, List.getElem?_zipIdx]
  cases times[row]? <;> simp [factorsAt]

end Frame

end Columnar
