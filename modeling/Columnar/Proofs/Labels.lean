import Columnar.Pivot.Wide
import Columnar.Proofs.Keyed

/-! Labels as finite maps. A label set is determined by the text under each key, and setting a key
decides the text under that key alone. -/
namespace Columnar

namespace Labels

theorem get?_insert (labels : Labels) (key value asked : String) :
    (labels.insert key value).get? asked =
      if asked = key then some value else labels.get? asked :=
  Keyed.lookup_insert ..

/-- Label sets with the same text under each key are the same. -/
theorem ext_get? {labels other : Labels} (same : ∀ key, labels.get? key = other.get? key) :
    labels = other := by
  obtain ⟨pairs, ascending⟩ := labels
  obtain ⟨others, alsoAscending⟩ := other
  obtain rfl := Keyed.eq_of_lookup ascending alsoAscending same
  rfl

/-- Of several texts for one key, the last one counts. -/
theorem get?_foldl_insert (pairs : List (String × String)) (labels : Labels) (asked : String) :
    (pairs.foldl (fun labels (key, value) => labels.insert key value) labels).get? asked =
      (pairs.reverse.lookup asked).or (labels.get? asked) := by
  induction pairs generalizing labels with
  | nil => rfl
  | cons pair rest ih =>
    obtain ⟨key, value⟩ := pair
    rw [List.foldl_cons, ih, get?_insert, List.reverse_cons, List.lookup_append, Option.or_assoc]
    by_cases same : asked = key <;> simp [same]

/-- The labels of a series are those of its source, overlaid with the texts of the factors. -/
theorem get?_withFactors (labels : Labels) (names texts : List String) (asked : String) :
    (labels.withFactors names texts).get? asked =
      ((names.zip texts).reverse.lookup asked).or (labels.get? asked) :=
  get?_foldl_insert ..

theorem mem_keys {labels : Labels} {key : String} :
    key ∈ labels.keys ↔ (labels.get? key).isSome = true := by
  rw [keys, get?, List.lookup_isSome_iff, List.mem_map]
  constructor
  · rintro ⟨pair, member, rfl⟩
    exact ⟨pair, member, by simp⟩
  · rintro ⟨pair, member, same⟩
    exact ⟨pair, member, (eq_of_beq same).symm⟩

theorem keys_nodup (labels : Labels) : labels.keys.Nodup :=
  Keyed.nodup_of_ascending labels.ascending

theorem keys_ascending (labels : Labels) : labels.keys.Pairwise fun a b => a < b :=
  List.pairwise_map.2 labels.ascending

/-- In their order, keys are known by what is among them. -/
theorem keys_eq_of_mem {first second : Labels}
    (same : ∀ key, key ∈ first.keys ↔ key ∈ second.keys) : first.keys = second.keys := by
  have perm : first.keys.Perm second.keys :=
    (List.perm_ext_iff_of_nodup first.keys_nodup second.keys_nodup).2 same
  exact perm.eq_of_pairwise (fun _ _ _ _ before after => absurd after (String.lt_asymm before))
    first.keys_ascending second.keys_ascending

/-- Where both label sets have a key, the text of the second one counts. -/
theorem get?_extend (labels other : Labels) (asked : String) :
    (labels.extend other).get? asked = (other.get? asked).or (labels.get? asked) := by
  rw [extend, get?_foldl_insert, lookup_eq_of_perm other.keys_nodup other.pairs.reverse_perm]
  rfl

/-- A key of one label set or of the other one is a key of both together. -/
theorem isSome_get?_extend (labels other : Labels) (asked : String) :
    ((labels.extend other).get? asked).isSome = true ↔
      (labels.get? asked).isSome = true ∨ (other.get? asked).isSome = true := by
  rw [get?_extend, Option.isSome_or, Bool.or_eq_true, or_comm]

theorem isSome_get?_foldl_extend {α : Type} (labelsOf : α → Labels) (items : List α)
    (labels : Labels) (asked : String) :
    ((items.foldl (fun labels item => labels.extend (labelsOf item)) labels).get? asked).isSome =
        true ↔
      (labels.get? asked).isSome = true ∨
        ∃ item ∈ items, ((labelsOf item).get? asked).isSome = true := by
  induction items generalizing labels with
  | nil => simp
  | cons item rest ih => simp [ih, isSome_get?_extend, or_assoc]

end Labels

end Columnar
