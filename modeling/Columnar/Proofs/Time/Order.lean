import Columnar.Pivot.Wide
import Mathlib.Data.List.Nodup

/-! Instants in order. Seconds count first and nanoseconds within them second, so that the order is
total, and sorting a list of instants and dropping repeats leaves each of them once. -/
namespace Columnar.Instant

variable {a b c : Instant} {times : List Instant}

theorem before_iff :
    a.before b = true ↔ a.second < b.second ∨ (a.second = b.second ∧ a.nano < b.nano) := by
  simp [before]

theorem atMost_iff :
    a.atMost b = true ↔ a.second < b.second ∨ (a.second = b.second ∧ a.nano ≤ b.nano) := by
  simp only [atMost, Bool.not_eq_true', ← Bool.not_eq_true, before_iff]
  omega

/-- An instant is its second and its nanoseconds. -/
theorem eq_of_parts (second : a.second = b.second) (nano : a.nano = b.nano) : a = b := by
  cases a
  cases b
  cases second
  cases nano
  rfl

theorem atMost_trans (first : a.atMost b = true) (next : b.atMost c = true) :
    a.atMost c = true := by
  rw [atMost_iff] at first next ⊢
  omega

theorem atMost_total (a b : Instant) : (a.atMost b || b.atMost a) = true := by
  rw [Bool.or_eq_true, atMost_iff, atMost_iff]
  omega

theorem before_of_atMost (ordered : a.atMost b = true) (differ : a ≠ b) : a.before b = true := by
  rw [atMost_iff] at ordered
  rw [before_iff]
  rcases ordered with earlier | ⟨same, atMost⟩
  · exact .inl earlier
  · refine .inr ⟨same, Nat.lt_of_le_of_ne atMost fun nano => differ (eq_of_parts same nano)⟩

theorem before_of_before_of_atMost (first : a.before b = true) (next : b.atMost c = true) :
    a.before c = true := by
  rw [before_iff] at first ⊢
  rw [atMost_iff] at next
  omega

theorem atMost_of_before (earlier : a.before b = true) : a.atMost b = true := by
  rw [before_iff] at earlier
  rw [atMost_iff]
  omega

theorem ne_of_before (earlier : a.before b = true) : a ≠ b := by
  rintro rfl
  rw [before_iff] at earlier
  omega

private theorem mem_withoutRepeats {t : Instant} : t ∈ withoutRepeats times ↔ t ∈ times := by
  fun_induction withoutRepeats times with
  | case1 => rfl
  | case2 => rfl
  | case3 u rest ih => simp [ih]
  | case4 t u rest differ ih => simp [ih]

/-- Dropping repeats from a sorted list leaves every instant strictly before the next. -/
private theorem withoutRepeats_ascending (sorted : times.Pairwise fun a b => a.atMost b = true) :
    (withoutRepeats times).Pairwise fun a b => a.before b = true := by
  fun_induction withoutRepeats times with
  | case1 => exact .nil
  | case2 => exact List.pairwise_singleton ..
  | case3 u rest ih => exact ih (List.pairwise_cons.1 sorted).2
  | case4 t u rest differ ih =>
    obtain ⟨fromT, restSorted⟩ := List.pairwise_cons.1 sorted
    refine List.pairwise_cons.2 ⟨fun later member => ?_, ih restSorted⟩
    have next : t.before u = true := before_of_atMost (fromT u (by simp)) differ
    rcases List.mem_cons.1 (mem_withoutRepeats.1 member) with rfl | member
    · exact next
    · exact before_of_before_of_atMost next ((List.pairwise_cons.1 restSorted).1 later member)

/-- Nothing is lost or invented when the repeats of a list are dropped. -/
theorem mem_distinct {t : Instant} : t ∈ distinct times ↔ t ∈ times := by
  rw [distinct, mem_withoutRepeats, List.mem_mergeSort]

theorem distinct_ascending (times : List Instant) :
    (distinct times).Pairwise fun a b => a.before b = true := by
  have sorted : (times.mergeSort atMost).Pairwise fun a b => a.atMost b = true := by
    apply List.pairwise_mergeSort
    · intro a b c first next
      exact atMost_trans first next
    · exact atMost_total
  exact withoutRepeats_ascending sorted

/-- There is one way only to put instants in ascending order. -/
theorem distinct_eq {slots : List Instant} (ascending : slots.Pairwise fun a b => a.before b = true)
    (same : ∀ t, t ∈ slots ↔ t ∈ times) : distinct times = slots := by
  have once : ∀ {list : List Instant}, (list.Pairwise fun a b => a.before b = true) → list.Nodup :=
    fun sorted => sorted.imp ne_of_before
  have perm : (distinct times).Perm slots := by
    apply (List.perm_ext_iff_of_nodup (once (distinct_ascending times)) (once ascending)).2
    intro t
    rw [mem_distinct, same]
  refine perm.eq_of_pairwise (fun a b _ _ first second => ?_) (distinct_ascending times) ascending
  rw [before_iff] at first second
  omega

end Columnar.Instant
