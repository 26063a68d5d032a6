/-! Lists of pairs in ascending order of their keys, each key once. Setting a key keeps the order,
so such a list is a finite map with one form for every content. -/
namespace Columnar.Keyed

variable {α : Type}

/-- The keys are in ascending order, none of them twice. -/
def Ascending (pairs : List (String × α)) : Prop :=
  pairs.Pairwise fun a b => a.1 < b.1

instance (pairs : List (String × α)) : Decidable (Ascending pairs) :=
  inferInstanceAs (Decidable (pairs.Pairwise fun a b => a.1 < b.1))

/-- The list with a key set to a value; a value it had before is replaced. -/
def insert (key : String) (value : α) : List (String × α) → List (String × α)
  | [] => [(key, value)]
  | (k, v) :: rest =>
    if key < k then (key, value) :: (k, v) :: rest
    else if key = k then (key, value) :: rest
    else (k, v) :: insert key value rest

/-- Every pair after setting a key is the new one or was there before. -/
theorem mem_insert {key : String} {value : α} {pairs : List (String × α)} {pair : String × α}
    (member : pair ∈ insert key value pairs) : pair = (key, value) ∨ pair ∈ pairs := by
  induction pairs with
  | nil => simpa [insert] using member
  | cons head rest ih =>
    obtain ⟨k, v⟩ := head
    simp only [insert] at member
    split at member
    · simpa using member
    · split at member
      · simp only [List.mem_cons] at member ⊢
        exact member.imp id fun h => .inr h
      · simp only [List.mem_cons] at member ⊢
        rcases member with rfl | member
        · exact .inr (.inl rfl)
        · exact (ih member).imp id .inr

theorem ascending_insert (key : String) (value : α) {pairs : List (String × α)}
    (sorted : Ascending pairs) : Ascending (insert key value pairs) := by
  induction pairs with
  | nil => simp [insert, Ascending]
  | cons head rest ih =>
    obtain ⟨k, v⟩ := head
    obtain ⟨below, restSorted⟩ := List.pairwise_cons.1 sorted
    simp only [insert]
    split
    next less =>
      refine List.pairwise_cons.2 ⟨fun pair member => ?_, sorted⟩
      rcases List.mem_cons.1 member with rfl | member
      · exact less
      · exact String.lt_trans less (below pair member)
    next notLess =>
      split
      next same => subst same; exact List.pairwise_cons.2 ⟨below, restSorted⟩
      next different =>
        refine List.pairwise_cons.2 ⟨fun pair member => ?_, ih restSorted⟩
        rcases mem_insert member with rfl | member
        · exact Std.lt_of_le_of_ne notLess (Ne.symm different)
        · exact below pair member

end Columnar.Keyed
