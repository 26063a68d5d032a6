import Columnar.Labels.Calls
import Mathlib.Data.List.Pairwise
import Columnar.Proofs.Labels

/-! Labels after any calls. They say under each key what was written there last and nothing about the
order in which it was written, so that labels are compared, contained and extended as the finite maps
that they are. -/
namespace Columnar

namespace LabelCall

/-- The value that a call writes under a key. -/
def written? : LabelCall → String → Option String
  | .insert key value, asked | .including key value, asked =>
    if asked = key then some value else none
  | .extend other, asked => other.get? asked

/-- The value that is written under a key by the last call that writes one there. -/
def last? (calls : List LabelCall) (key : String) : Option String :=
  calls.reverse.findSome? (·.written? key)

/-- No key is written by both calls. -/
def Apart (first second : LabelCall) : Prop :=
  ∀ key, first.written? key = none ∨ second.written? key = none

/-- Two insertions are apart when their keys differ. -/
theorem apart_insert_iff {key value other third : String} :
    Apart (.insert key value) (.insert other third) ↔ key ≠ other := by
  constructor
  · rintro apart rfl
    simpa [written?] using apart key
  · intro differ asked
    by_cases same : asked = key
    · exact .inr (if_neg fun again => differ (same.symm.trans again))
    · exact .inl (if_neg same)

theorem last?_cons (call : LabelCall) (rest : List LabelCall) (key : String) :
    last? (call :: rest) key = (last? rest key).or (call.written? key) := by
  rw [last?, List.reverse_cons, List.findSome?_append, List.findSome?_singleton, last?]

end LabelCall

namespace Labels

open LabelCall (last? Apart)

variable {labels other : Labels}

/-! ## Labels as maps -/

theorem get?_eq_some_iff {key value : String} :
    labels.get? key = some value ↔ (key, value) ∈ labels.pairs :=
  lookup_eq_some_iff_mem labels.keys_nodup

theorem contains_iff : labels.contains other = true ↔
    ∀ key value, other.get? key = some value → labels.get? key = some value := by
  simp only [contains, List.all_eq_true, beq_iff_eq, get?_eq_some_iff, Prod.forall]

theorem contains_trans {third : Labels} (first : labels.contains other = true)
    (second : other.contains third = true) : labels.contains third = true := by
  rw [contains_iff] at first second ⊢
  exact fun key value found => first key value (second key value found)

theorem eq_of_contains (first : labels.contains other = true)
    (second : other.contains labels = true) : labels = other := by
  rw [contains_iff] at first second
  exact ext_get? fun key => Option.ext fun value => ⟨second key value, first key value⟩

theorem extend_assoc (first second third : Labels) :
    (first.extend second).extend third = first.extend (second.extend third) :=
  ext_get? fun key => by simp only [get?_extend, Option.or_assoc]

theorem extend_eq_of_contains (contained : labels.contains other = true) :
    labels.extend other = labels := by
  apply ext_get?
  intro key
  rw [get?_extend]
  cases found : other.get? key with
  | none => rw [Option.none_or]
  | some value => rw [contains_iff.1 contained key value found, Option.some_or]

theorem contains_extend (labels other : Labels) : (labels.extend other).contains other = true :=
  contains_iff.2 fun key value found => by rw [get?_extend, found, Option.some_or]

theorem contains_self (labels : Labels) : labels.contains labels = true :=
  contains_iff.2 fun _ _ found => found

/-! ## Runs -/

/-- A call writes its values and leaves what stands under other keys. -/
theorem get?_perform (labels : Labels) (call : LabelCall) (key : String) :
    (labels.perform call).1.get? key = (call.written? key).or (labels.get? key) := by
  cases call with
  | insert written value | including written value =>
    rw [perform, get?_insert, LabelCall.written?]
    split <;> rfl
  | extend other => exact get?_extend ..

theorem get?_performAll (labels : Labels) (calls : List LabelCall) (key : String) :
    (labels.performAll calls).get? key = (last? calls key).or (labels.get? key) := by
  induction calls generalizing labels with
  | nil => rfl
  | cons call rest ih =>
    rw [performAll, List.foldl_cons, ← performAll, ih, get?_perform, LabelCall.last?_cons,
      Option.or_assoc]

theorem perform_comm {first second : LabelCall} (apart : Apart first second) (labels : Labels) :
    ((labels.perform first).1.perform second).1 = ((labels.perform second).1.perform first).1 := by
  apply ext_get?
  intro key
  simp only [get?_perform]
  rcases apart key with none | none <;> simp only [none, Option.none_or]

/-- Calls that write no key in common can be made in any order. -/
theorem performAll_perm {calls others : List LabelCall} (apart : calls.Pairwise Apart)
    (same : others.Perm calls) (labels : Labels) :
    labels.performAll others = labels.performAll calls := by
  have symmetric : Std.Symm Apart := ⟨fun _ _ apart key => (apart key).symm⟩
  refine (same.symm.foldl_eq' (fun first inFirst second inSecond labels => ?_) labels).symm
  by_cases again : first = second
  · rw [again]
  · exact perform_comm (apart.forall inFirst inSecond again) labels

/-- What labels say after calls that began with no labels. -/
structure Reflects (labels : Labels) (calls : List LabelCall) : Prop where
  get? : ∀ key, labels.get? key = last? calls key
  mem_keys : ∀ key, key ∈ labels.keys ↔ ∃ call ∈ calls, (call.written? key).isSome = true
  ascending : labels.keys.Pairwise (· < ·)
  replaced : ∀ key value,
    (labels.perform (.insert key value)).2 = .replaced (last? calls key)

/-- What can be relied on when labels are taken for a map, whatever they are compared or put together
with. -/
structure AsMap (labels : Labels) : Prop where
  equal_iff : ∀ other, (labels == other) = true ↔ ∀ key, labels.get? key = other.get? key
  reordered : ∀ calls others, calls.Pairwise Apart → others.Perm calls →
    (labels.performAll others == labels.performAll calls) = true ∧
      (labels.performAll others).text = (labels.performAll calls).text ∧
      (labels.performAll others).toJson.octets = (labels.performAll calls).toJson.octets
  contains_iff : ∀ other, labels.contains other = true ↔
    ∀ key value, other.get? key = some value → labels.get? key = some value
  contains_self : labels.contains labels = true
  contains_trans : ∀ other third, labels.contains other = true → other.contains third = true →
    labels.contains third = true
  contains_both : ∀ other, (labels.contains other && other.contains labels) = (labels == other)
  get?_extend : ∀ other key,
    (labels.extend other).get? key = (other.get? key).or (labels.get? key)
  extend_contains : ∀ other, (labels.extend other).contains other = true
  extend_assoc : ∀ other third,
    (labels.extend other).extend third = labels.extend (other.extend third)
  extend_again : ∀ other, (labels.extend other).extend other = labels.extend other
  extend_self : labels.extend labels = labels

theorem reflects_performAll (calls : List LabelCall) :
    (empty.performAll calls).Reflects calls := by
  have written : ∀ key, (empty.performAll calls).get? key = last? calls key := fun key =>
    (get?_performAll empty calls key).trans (Option.or_none ..)
  refine ⟨written, fun key => ?_, keys_ascending _, fun key value => ?_⟩
  · rw [Labels.mem_keys, written, last?, List.findSome?_isSome_iff]
    simp only [List.mem_reverse]
  · exact congrArg LabelAnswer.replaced (written key)

theorem asMap (labels : Labels) : labels.AsMap where
  equal_iff other := by
    rw [beq_iff_eq]
    exact ⟨fun same key => by rw [same], ext_get?⟩
  reordered calls others apart same := by
    rw [performAll_perm apart same]
    exact ⟨beq_self_eq_true _, rfl, rfl⟩
  contains_iff _ := Labels.contains_iff
  contains_self := labels.contains_self
  contains_trans _ _ := Labels.contains_trans
  contains_both other := by
    rw [Bool.eq_iff_iff, Bool.and_eq_true, beq_iff_eq]
    constructor
    · exact fun both => eq_of_contains both.1 both.2
    · rintro rfl
      exact ⟨labels.contains_self, labels.contains_self⟩
  get?_extend := labels.get?_extend
  extend_contains := labels.contains_extend
  extend_assoc := labels.extend_assoc
  extend_again other := extend_eq_of_contains (labels.contains_extend other)
  extend_self := extend_eq_of_contains labels.contains_self

/-- After any calls, labels are the finite map of what was written last under each key. -/
theorem performAll_asMap (calls : List LabelCall) :
    (empty.performAll calls).Reflects calls ∧ (empty.performAll calls).AsMap :=
  ⟨reflects_performAll calls, asMap _⟩

/-- A host that moves, and a zone that is named between its two places. -/
example : (empty.performAll
    [.insert "host" "a", .including "zone" "eu", .insert "host" "b"]).text =
      "\x7bhost=b, zone=eu\x7d" := rfl

end Labels

end Columnar
