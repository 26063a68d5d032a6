import Columnar.Labels
import Columnar.Proofs.Json.Depth

/-! What readers make of the parts of documents that were written. A reader gives a result for a
value when no name repeats in the value and the reader makes the result of every draft that tells
the value, in whatever order the members of objects come. -/
namespace Columnar

theorem Json.ofNat_eq {n : Nat}
    (inRange : -0x8000000000000000 ≤ (n : Int) ∧ (n : Int) < 0x10000000000000000) :
    Json.ofNat n = .number (.whole n inRange) := by
  rw [ofNat, JsonNumber.ofInt?, dif_pos inRange, Option.map_some, Option.getD_some]

namespace DraftReader

variable {α β : Type} {read : DraftReader β}

/-- The reader makes the result of every draft that tells the value. -/
structure Gives (read : DraftReader β) (value : Json) (result : β) : Prop where
  distinct : value.Distinct
  reads : ∀ draft, value.ToldBy draft → read draft = .ok result

theorem json_gives {value : Json} (ordered : value.Ordered) : json.Gives value value where
  distinct := Json.distinct_of_ordered ordered
  reads draft told := by
    rw [json, Json.toJson_of_toldBy ordered told]
    rfl

theorem string_gives (s : String) : string.Gives (.string s) s where
  distinct := trivial
  reads := by
    rintro draft ⟨⟩
    rfl

theorem flag_gives (b : Bool) : flag.Gives (.bool b) b where
  distinct := trivial
  reads := by
    rintro draft ⟨⟩
    rfl

theorem real_gives {x : Binary64} (finite : x.isFinite = true) : real.Gives (Json.ofReal x) x := by
  rw [Json.ofReal, dif_pos finite]
  refine ⟨trivial, ?_⟩
  rintro draft ⟨⟩
  rfl

theorem natural_gives {n bits : Nat} (name : String) (fits : n < Nat.pow 2 bits)
    (narrow : n < 0x10000000000000000) : (natural bits name).Gives (Json.ofNat n) n := by
  have inRange : -0x8000000000000000 ≤ (n : Int) ∧ (n : Int) < 0x10000000000000000 := by omega
  have small : 0 ≤ (n : Int) ∧ (n : Int) < Nat.pow 2 bits := ⟨by omega, by exact_mod_cast fits⟩
  rw [Json.ofNat_eq inRange]
  refine ⟨trivial, ?_⟩
  rintro draft ⟨⟩
  rw [natural, if_pos small, Int.toNat_natCast]

theorem nullable_gives {value : Json} {result : β} (given : read.Gives value result)
    (present : value ≠ .null) : (nullable read).Gives value (some result) := by
  refine ⟨given.distinct, fun draft told => ?_⟩
  have here : draft ≠ .null := by
    rintro rfl
    exact present (Json.eq_null_of_toldBy told)
  cases draft with
  | null => exact absurd rfl here
  | _ => exact congrArg (Except.map some) (given.reads _ told)

theorem nullable_gives_none : (nullable read).Gives .null none where
  distinct := trivial
  reads := by
    rintro draft ⟨⟩
    rfl

theorem nullable_real_gives (x : Binary64) :
    (nullable real).Gives (Json.ofReal x) ((some x).filter Binary64.isFinite) := by
  by_cases finite : x.isFinite = true
  · rw [Option.filter_some, if_pos finite]
    refine nullable_gives (real_gives finite) ?_
    rw [Json.ofReal, dif_pos finite]
    exact nofun
  · rw [Option.filter_some, if_neg finite, Json.ofReal, dif_neg finite]
    exact nullable_gives_none

theorem listOf_gives {write : α → Json} (result : α → β) {items : List α}
    (given : ∀ item ∈ items, read.Gives (write item) (result item)) :
    (listOf read).Gives (.list (items.map write)) (items.map result) := by
  have distinct : ∀ item ∈ items.map write, item.Distinct := by
    intro item member
    obtain ⟨source, listed, rfl⟩ := List.mem_map.1 member
    exact (given source listed).distinct
  refine ⟨Json.itemsDistinct_iff.2 distinct, ?_⟩
  clear distinct
  rintro draft ⟨drafts, rfl, told⟩
  rw [listOf]
  rw [Json.itemsTold_iff] at told
  induction items generalizing drafts with
  | nil =>
    cases told
    rfl
  | cons item rest ih =>
    rcases told with _ | ⟨here, later⟩
    have first := (given item (by simp)).reads _ here
    have others := ih (fun other member => given other (by simp [member])) _ later
    rw [DraftReader.items, first]
    dsimp only
    rw [others]
    rfl

theorem listOf_gives_self {write : β → Json} {items : List β}
    (given : ∀ item ∈ items, read.Gives (write item) item) :
    (listOf read).Gives (.list (items.map write)) items := by
  simpa using listOf_gives id given

theorem pairOf_gives (origin : DraftOrigin) {first second : Json} {a b : β}
    (left : read.Gives first a) (right : read.Gives second b) :
    (pairOf origin read).Gives (.list [first, second]) (a, b) := by
  refine ⟨⟨left.distinct, right.distinct, trivial⟩, ?_⟩
  rintro draft ⟨drafts, rfl, told⟩
  rw [Json.itemsTold_iff] at told
  rcases told with _ | ⟨here, _ | ⟨there, ⟨⟩⟩⟩
  rw [pairOf, left.reads _ here, right.reads _ there]
  rfl

theorem oneOf_gives (origin : DraftOrigin) {variants : List (String × β)} {name : String}
    {choice : β} (listed : variants.lookup name = some choice) :
    (oneOf origin variants).Gives (.string name) choice := by
  refine ⟨trivial, ?_⟩
  rintro draft ⟨⟩
  have chosen : choose variants name = .ok choice := by rw [choose, listed]
  exact chosen

/-- The members of an object are read in the order of their names, in whatever order they stand. -/
theorem mapOf_gives {write : β → Json} {pairs : List (String × β)}
    (ascending : Keyed.Ascending pairs)
    (given : ∀ pair ∈ pairs, read.Gives (write pair.2) pair.2) :
    (mapOf read).Gives (.object (pairs.map fun pair => (pair.1, write pair.2))) pairs := by
  have distinct := Keyed.nodup_of_ascending ascending
  refine ⟨⟨by simpa [Function.comp_def] using distinct, ?_⟩, ?_⟩
  · apply Json.membersDistinct_iff.2
    intro member inPairs
    obtain ⟨pair, listed, rfl⟩ := List.mem_map.1 inPairs
    exact (given pair listed).distinct
  rintro draft ⟨drafts, told, rfl, moved, all⟩
  rw [Json.membersTold_iff, List.forall₂_map_left_iff] at all
  have readAll : List.Forall₂ read.MemberRead told pairs := by
    refine (forall₂_imp_of_mem all fun pair member told here => ?_).flip
    exact ⟨here.1, (given pair member).reads _ here.2⟩
  obtain ⟨found, ran, same, sorted⟩ := members_of_perm moved readAll distinct
  rw [mapOf, ran, Keyed.eq_of_perm same sorted ascending]

/-- The reader has no result for any draft that tells the value. -/
def Refuses (read : DraftReader β) (value : Json) : Prop :=
  ∀ draft, value.ToldBy draft → ∀ result, read draft ≠ .ok result

theorem real_refuses_null : real.Refuses .null := by
  rintro draft ⟨⟩ result ran
  cases ran

theorem nullable_refuses {value : Json} (refused : read.Refuses value) (present : value ≠ .null) :
    (nullable read).Refuses value := by
  intro draft told result ran
  cases draft with
  | null => exact present (Json.eq_null_of_toldBy told)
  | _ =>
    obtain ⟨content, found, -⟩ := map_eq_ok_iff.1 ran
    exact refused _ told content found

theorem listOf_refuses {items : List Json} {item : Json} (member : item ∈ items)
    (refused : read.Refuses item) : (listOf read).Refuses (.list items) := by
  rintro draft ⟨drafts, rfl, told⟩ results ran
  rw [Json.itemsTold_iff] at told
  rw [listOf] at ran
  induction told generalizing results with
  | nil => cases member
  | @cons first draft rest drafts here _ ih =>
    rw [DraftReader.items] at ran
    split at ran
    · cases ran
    next value found =>
      obtain ⟨others, later, -⟩ := map_eq_ok_iff.1 ran
      rcases List.mem_cons.1 member with rfl | member
      · exact refused draft here value found
      · exact ih member others later

/-- The text of a value is read as the value is. -/
theorem ofText_of_gives {read : DraftOrigin → DraftReader β} {value : Json} {result : β}
    (given : (read .text).Gives value result) (legible : value.Legible) :
    ofText read value.octets = .ok result := by
  obtain ⟨draft, scanned, told⟩ := Json.scan_octets legible
  rw [ofText, scanned]
  simp only [bind, Except.bind, given.reads draft told]
  rfl

theorem ofText_of_refuses {read : DraftOrigin → DraftReader β} {value : Json}
    (refused : (read .text).Refuses value) (legible : value.Legible) (result : β) :
    ofText read value.octets ≠ .ok result := by
  obtain ⟨draft, scanned, told⟩ := Json.scan_octets legible
  intro ran
  obtain ⟨found, here, -⟩ := bind_eq_ok_iff.1 ran
  rw [scanned] at here
  exact refused draft told found here

end DraftReader

open DraftReader

theorem FreeForm.read_gives (free : FreeForm) : FreeForm.read.Gives free.value free := by
  refine ⟨Json.distinct_of_ordered free.ordered, fun draft told => ?_⟩
  have found := Json.toJson_of_toldBy free.ordered told
  unfold FreeForm.read
  split
  next value read =>
    rw [found] at read
    cases read
    rfl
  next fault failed =>
    rw [found] at failed
    cases failed

theorem FreeObject.read_gives (free : FreeObject) : FreeObject.read.Gives free.toJson free := by
  refine ⟨Json.distinct_of_ordered free.ordered, fun draft told => ?_⟩
  have each : ∀ member ∈ free.members, json.Gives (id member.2) member.2 := by
    intro member listed
    exact json_gives (Json.membersOrdered_iff.1 free.ordered.2 member listed)
  have found := (mapOf_gives free.ordered.1 each).reads draft
    (by simpa [FreeObject.toJson] using told)
  unfold FreeObject.read
  split
  next members read =>
    rw [found] at read
    cases read
    rfl
  next fault failed =>
    rw [found] at failed
    cases failed

theorem FreeForm.nullable_read_gives (free : FreeForm) :
    (nullable FreeForm.read).Gives free.value
      ((some free).filter fun free => !free.value.isNull) := by
  obtain ⟨value, ordered⟩ := free
  cases value with
  | null => exact nullable_gives_none
  | _ => exact nullable_gives (FreeForm.read_gives ⟨_, ordered⟩) nofun

namespace Labels

theorem pairs_foldl (pairs : List (String × String)) (labels : Labels) :
    (pairs.foldl (fun labels (key, value) => labels.insert key value) labels).pairs =
      Keyed.insertAll pairs labels.pairs := by
  induction pairs generalizing labels with
  | nil => rfl
  | cons pair rest ih => exact ih _

theorem ofPairs_pairs (labels : Labels) : ofPairs labels.pairs = labels := by
  have same : (ofPairs labels.pairs).pairs = labels.pairs :=
    (pairs_foldl _ _).trans (Keyed.insertAll_eq (.refl _) labels.ascending)
  cases built : ofPairs labels.pairs
  cases labels
  simpa [built] using same

theorem read_gives (labels : Labels) : Labels.read.Gives labels.toJson labels := by
  have each : ∀ pair ∈ labels.pairs, string.Gives (.string pair.2) pair.2 :=
    fun pair _ => string_gives pair.2
  have given := mapOf_gives labels.ascending each
  refine ⟨given.distinct, fun draft told => ?_⟩
  rw [Labels.read, given.reads draft told]
  exact congrArg Except.ok labels.ofPairs_pairs

end Labels

end Columnar
