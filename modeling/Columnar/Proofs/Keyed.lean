import Columnar.Keyed
import Columnar.Proofs.Collections

/-! Lists of pairs in the order of their keys. Setting a key decides what stands under that key
alone; setting new keys one after the other gives the same list in whatever order they come. -/
namespace Columnar.Keyed

variable {α : Type}

theorem lookup_insert (key : String) (value : α) (pairs : List (String × α)) (asked : String) :
    (insert key value pairs).lookup asked =
      if asked = key then some value else pairs.lookup asked := by
  induction pairs with
  | nil =>
    by_cases same : asked = key
    · simp [insert, same]
    · simp [insert, lookup_cons_of_ne same, same]
  | cons pair rest ih =>
    obtain ⟨k, v⟩ := pair
    simp only [insert]
    split
    next before =>
      by_cases same : asked = key
      · simp [same]
      · simp [lookup_cons_of_ne same, same]
    next notBefore =>
      split
      next same =>
        subst same
        by_cases same : asked = key
        · simp [same]
        · simp [lookup_cons_of_ne same, same]
      next differ =>
        by_cases same : asked = k
        · subst same
          have other : asked ≠ key := fun same => differ same.symm
          simp [other]
        · rw [lookup_cons_of_ne same, lookup_cons_of_ne same, ih]

theorem insert_perm {key : String} (value : α) {pairs : List (String × α)}
    (absent : key ∉ pairs.map Prod.fst) :
    (insert key value pairs).Perm ((key, value) :: pairs) := by
  induction pairs with
  | nil => exact .refl _
  | cons pair rest ih =>
    obtain ⟨k, v⟩ := pair
    rw [List.map_cons, List.mem_cons, not_or] at absent
    simp only [insert]
    split
    · exact .refl _
    · rw [if_neg absent.1]
      exact ((ih absent.2).cons (k, v)).trans (.swap ..)

theorem nodup_of_ascending {pairs : List (String × α)} (ascending : Ascending pairs) :
    (pairs.map Prod.fst).Nodup := by
  refine List.pairwise_map.2 (ascending.imp fun {a b} before same => ?_)
  rw [same] at before
  exact String.lt_irrefl _ before

/-- The order of the keys leaves no choice. -/
theorem eq_of_perm {first second : List (String × α)} (same : first.Perm second)
    (ascending : Ascending first) (other : Ascending second) : first = second :=
  same.eq_of_pairwise (fun _ _ _ _ before after => absurd after (String.lt_asymm before))
    ascending other

/-- A list of pairs is known by what stands under each key. -/
theorem eq_of_lookup {first second : List (String × α)} (ascending : Ascending first)
    (other : Ascending second) (same : ∀ key, first.lookup key = second.lookup key) :
    first = second := by
  have firstKeys := nodup_of_ascending ascending
  have secondKeys := nodup_of_ascending other
  refine eq_of_perm ?_ ascending other
  refine (List.perm_ext_iff_of_nodup firstKeys.of_map secondKeys.of_map).2 ?_
  rintro ⟨key, value⟩
  rw [← lookup_eq_some_iff_mem firstKeys, same, lookup_eq_some_iff_mem secondKeys]

/-- Pairs set one after the other. -/
def insertAll (pairs done : List (String × α)) : List (String × α) :=
  pairs.foldl (fun done pair => insert pair.1 pair.2 done) done

theorem ascending_insertAll (pairs : List (String × α)) {done : List (String × α)}
    (ascending : Ascending done) : Ascending (insertAll pairs done) := by
  induction pairs generalizing done with
  | nil => exact ascending
  | cons pair rest ih => exact ih (ascending_insert _ _ ascending)

theorem insertAll_perm {pairs done : List (String × α)}
    (distinct : ((pairs ++ done).map Prod.fst).Nodup) :
    (insertAll pairs done).Perm (pairs ++ done) := by
  induction pairs generalizing done with
  | nil => exact .refl _
  | cons pair rest ih =>
    obtain ⟨key, value⟩ := pair
    have moved : (rest ++ (key, value) :: done).Perm ((key, value) :: rest ++ done) :=
      List.perm_middle
    have absent : key ∉ done.map Prod.fst := by
      rw [List.cons_append, List.map_cons, List.nodup_cons, List.map_append,
        List.mem_append] at distinct
      intro member
      exact distinct.1 (.inr member)
    have inserted : (rest ++ insert key value done).Perm ((key, value) :: rest ++ done) :=
      ((insert_perm value absent).append_left rest).trans moved
    have later : ((rest ++ insert key value done).map Prod.fst).Nodup :=
      (inserted.map Prod.fst).nodup_iff.2 distinct
    exact (ih later).trans inserted

/-- Setting the pairs of an ordered list, in whatever order, gives that list. -/
theorem insertAll_eq {pairs ordered : List (String × α)} (same : pairs.Perm ordered)
    (ascending : Ascending ordered) : insertAll pairs [] = ordered := by
  have distinct : ((pairs ++ []).map Prod.fst).Nodup := by
    rw [List.append_nil]
    exact (same.map Prod.fst).nodup_iff.2 (nodup_of_ascending ascending)
  have all : (insertAll pairs []).Perm ordered :=
    (insertAll_perm distinct).trans (by rwa [List.append_nil])
  exact eq_of_perm all (ascending_insertAll pairs List.Pairwise.nil) ascending

end Columnar.Keyed
