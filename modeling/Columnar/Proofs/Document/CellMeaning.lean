import Columnar.Proofs.Document.Decoded

/-! What the value of a cell means for its type. Integers and indices are taken from integers alone,
and only as they are: nothing is wrapped around or rounded into the range of the type. -/
namespace Columnar

namespace Json

variable {value : Json} {n : Int}

theorem signed?_eq_some_iff :
    value.signed? = some n ↔
      ∃ inRange, value = .number (.whole n inRange) ∧ n < 0x8000000000000000 := by
  cases value with
  | number number =>
    cases number with
    | whole m inRange =>
      simp only [signed?, JsonNumber.signed?, Option.ite_none_right_eq_some, Option.some.injEq]
      constructor
      · rintro ⟨small, rfl⟩
        exact ⟨inRange, rfl, small⟩
      · rintro ⟨-, ⟨⟩, small⟩
        exact ⟨small, rfl⟩
    | real => simp [signed?, JsonNumber.signed?]
  | _ => simp [signed?]

theorem natural?_eq_some_iff {n : Nat} :
    value.natural? = some n ↔ ∃ inRange, value = .number (.whole n inRange) := by
  cases value with
  | number number =>
    cases number with
    | whole m inRange =>
      simp only [natural?, JsonNumber.natural?, Option.ite_none_right_eq_some, Option.some.injEq]
      constructor
      · rintro ⟨natural, rfl⟩
        have same : (m.toNat : Int) = m := Int.toNat_of_nonneg natural
        exact ⟨by omega, by simp only [same]⟩
      · rintro ⟨-, ⟨⟩⟩
        exact ⟨Int.natCast_nonneg n, Int.toNat_natCast n⟩
    | real => simp [natural?, JsonNumber.natural?]
  | _ => simp [natural?]

/-- An integer in a range is left as it is by going to a type and back. -/
theorem whole_of_integerWithin? {α : Type} {toInt : α → Int} {ofInt : Int → α} {low high : Int}
    {x : α} (inverse : ∀ n, low ≤ n → n ≤ high → toInt (ofInt n) = n)
    (read : (value.integerWithin? low high).map ofInt = some x) :
    ∃ inRange, value = .number (.whole (toInt x) inRange) := by
  obtain ⟨n, within, rfl⟩ := Option.map_eq_some_iff.1 read
  obtain ⟨found, within⟩ := Option.filter_eq_some_iff.1 within
  obtain ⟨least, most⟩ := of_decide_eq_true within
  obtain ⟨inRange, same, -⟩ := signed?_eq_some_iff.1 found
  rw [inverse n least most]
  exact ⟨inRange, same⟩

/-- A natural number below a bound is left as it is by going to a type and back. -/
theorem whole_of_naturalBelow? {α : Type} {toNat : α → Nat} {ofNat : Nat → α} {bound : Nat}
    {x : α} (inverse : ∀ n < bound, toNat (ofNat n) = n)
    (read : (value.naturalBelow? bound).map ofNat = some x) :
    ∃ inRange, value = .number (.whole (toNat x) inRange) := by
  obtain ⟨n, below, rfl⟩ := Option.map_eq_some_iff.1 read
  obtain ⟨found, below⟩ := Option.filter_eq_some_iff.1 below
  rw [inverse n (of_decide_eq_true below)]
  exact natural?_eq_some_iff.1 found

end Json

namespace Kind

variable {kind : Kind} {value : Json} {x : kind.Element} {n low high : Int}

/-- The least and the greatest integer of a kind that holds integers or indices. -/
def range? : Kind → Option (Int × Int)
  | int8 => some (-0x80, 0x7F)
  | int16 => some (-0x8000, 0x7FFF)
  | int32 => some (-0x80000000, 0x7FFFFFFF)
  | int64 => some (-0x8000000000000000, 0x7FFFFFFFFFFFFFFF)
  | uint8 => some (0, 0xFF)
  | uint16 | enum => some (0, 0xFFFF)
  | uint32 => some (0, 0xFFFFFFFF)
  | uint64 => some (0, 0xFFFFFFFFFFFFFFFF)
  | _ => none

/-- What the value of a cell says an element is. Whatever is read as an integer must be one and stay
what it is. -/
def Stands : (kind : Kind) → Json → kind.Element → Prop
  | float32, value, x => ∃ number, value = .number number ∧
      x = Binary32.ofBinary64 number.toBinary64
  | float64, value, x => ∃ number, value = .number number ∧ x = number.toBinary64
  | string, value, x => value = .string x
  | bool, value, x => value = .bool x
  | time, value, x => value.instant? = some x
  | json, value, x => x = RawJson.ofValue value
  | kind, value, x => ∃ n inRange, value = .number (.whole n inRange) ∧ kind.integer? x = some n

/-- The element of an integer kind that is read is the integer that stands there. -/
theorem exists_whole_of_ofJson? (integer : kind.integer? x = some n)
    (read : kind.ofJson? value = some x) :
    ∃ inRange, value = .number (.whole n inRange) := by
  cases kind with
  | int8 =>
    cases integer
    exact Json.whole_of_integerWithin?
      (fun n least most => Int8.toInt_ofInt_of_le least (by omega)) read
  | int16 =>
    cases integer
    exact Json.whole_of_integerWithin?
      (fun n least most => Int16.toInt_ofInt_of_le least (by omega)) read
  | int32 =>
    cases integer
    exact Json.whole_of_integerWithin?
      (fun n least most => Int32.toInt_ofInt_of_le least (by omega)) read
  | int64 =>
    obtain ⟨m, found, rfl⟩ := Option.map_eq_some_iff.1 read
    obtain ⟨inRange, same, most⟩ := Json.signed?_eq_some_iff.1 found
    cases integer
    rw [Int64.toInt_ofInt_of_le inRange.1 most]
    exact ⟨inRange, same⟩
  | uint64 =>
    obtain ⟨m, found, rfl⟩ := Option.map_eq_some_iff.1 read
    obtain ⟨inRange, same⟩ := Json.natural?_eq_some_iff.1 found
    have below : m < UInt64.size := Int.ofNat_lt.1 inRange.2
    cases integer
    rw [UInt64.toNat_ofNat_of_lt' below]
    exact ⟨inRange, same⟩
  | uint8 =>
    cases integer
    exact Json.whole_of_naturalBelow? (fun n below => UInt8.toNat_ofNat_of_lt' below) read
  | uint16 | enum =>
    cases integer
    exact Json.whole_of_naturalBelow? (fun n below => UInt16.toNat_ofNat_of_lt' below) read
  | uint32 =>
    cases integer
    exact Json.whole_of_naturalBelow? (fun n below => UInt32.toNat_ofNat_of_lt' below) read
  | _ => cases integer

theorem ofJson?_eq_some_iff_of_integer (integer : kind.integer? x = some n) :
    kind.ofJson? value = some x ↔ ∃ inRange, value = .number (.whole n inRange) := by
  refine ⟨exists_whole_of_ofJson? integer, ?_⟩
  rintro ⟨_, rfl⟩
  exact (ofJson?_integer integer).2

theorem ofJson?_eq_some_iff : kind.ofJson? value = some x ↔ kind.Stands value x := by
  have integers : ∀ n, kind.integer? x = some n → (kind.ofJson? value = some x ↔
      ∃ n inRange, value = .number (.whole n inRange) ∧ kind.integer? x = some n) := by
    intro n integer
    rw [ofJson?_eq_some_iff_of_integer integer]
    constructor
    · rintro ⟨inRange, same⟩
      exact ⟨n, inRange, same, integer⟩
    · rintro ⟨m, inRange, same, other⟩
      cases integer.symm.trans other
      exact ⟨inRange, same⟩
  cases kind with
  | float32 | float64 => cases value <;> simp [ofJson?, Stands, Json.real?, eq_comm]
  | string | bool => cases value <;> simp [ofJson?, Stands]
  | time => exact Iff.rfl
  | json => simp [ofJson?, Stands, eq_comm]
  | _ => exact integers _ rfl

/-- The integer of an element lies in the range of its kind. -/
theorem integer_bounds (range : kind.range? = some (low, high)) :
    ∃ n, kind.integer? x = some n ∧ low ≤ n ∧ n ≤ high := by
  cases kind with
  | int8 =>
    cases range
    exact ⟨_, rfl, Int8.le_toInt x, Int.le_of_lt_add_one (Int8.toInt_lt x)⟩
  | int16 =>
    cases range
    exact ⟨_, rfl, Int16.le_toInt x, Int.le_of_lt_add_one (Int16.toInt_lt x)⟩
  | int32 =>
    cases range
    exact ⟨_, rfl, Int32.le_toInt x, Int.le_of_lt_add_one (Int32.toInt_lt x)⟩
  | int64 =>
    cases range
    exact ⟨_, rfl, Int64.le_toInt x, Int.le_of_lt_add_one (Int64.toInt_lt x)⟩
  | uint8 =>
    cases range
    have below := UInt8.toNat_lt x
    exact ⟨_, rfl, by omega, by omega⟩
  | uint16 | enum =>
    cases range
    have below := UInt16.toNat_lt x
    exact ⟨_, rfl, by omega, by omega⟩
  | uint32 =>
    cases range
    have below := UInt32.toNat_lt x
    exact ⟨_, rfl, by omega, by omega⟩
  | uint64 =>
    cases range
    have below := UInt64.toNat_lt x
    exact ⟨_, rfl, by omega, by omega⟩
  | _ => cases range

theorem isFloat_eq_false_of_range (range : kind.range? = some (low, high)) :
    kind.isFloat = false := by
  cases kind with
  | float32 | float64 => cases range
  | _ => rfl

/-- An element of integers or indices is read from an integer in the range of its kind, and is this
integer. -/
theorem whole_of_stands (range : kind.range? = some (low, high)) (stands : kind.Stands value x) :
    ∃ n inRange, value = .number (.whole n inRange) ∧ kind.integer? x = some n ∧
      low ≤ n ∧ n ≤ high := by
  obtain ⟨n, integer, least, most⟩ := integer_bounds (x := x) range
  obtain ⟨inRange, same⟩ := exists_whole_of_ofJson? integer (ofJson?_eq_some_iff.2 stands)
  exact ⟨n, inRange, same, integer, least, most⟩

end Kind

namespace FieldType

variable {type : FieldType} {value : Json} {content : Option type.kind.Element}

/-- What the value of a cell means for a type. A null is nothing, except for documents that must be
there: to these it is a document. -/
inductive Means (type : FieldType) : Json → Option type.kind.Element → Prop
  | nothing (other : type.kind = .json → type.nullable = true) : Means type .null none
  | element {value : Json} {x : type.kind.Element}
      (present : value = .null → type.kind = .json ∧ type.nullable = false)
      (stands : type.kind.Stands value x) : Means type value (some x)

/-- A value that is no null, or a null that is a document, is read as an element. -/
theorem contentOf?_of_present
    (present : value = .null → type.kind = .json ∧ type.nullable = false) :
    type.contentOf? value = (type.kind.ofJson? value).map some := by
  unfold contentOf?
  split
  next =>
    obtain ⟨kind, nullable⟩ := type
    obtain ⟨rfl, rfl⟩ := present rfl
    rfl
  next => rfl

theorem contentOf?_eq_some_iff : type.contentOf? value = some content ↔ type.Means value content := by
  by_cases present : value = .null → type.kind = .json ∧ type.nullable = false
  · rw [contentOf?_of_present present, Option.map_eq_some_iff]
    constructor
    · rintro ⟨x, read, rfl⟩
      exact .element present (Kind.ofJson?_eq_some_iff.1 read)
    · intro means
      cases means with
      | nothing other =>
        obtain ⟨document, required⟩ := present rfl
        rw [other document] at required
        cases required
      | element _ stands => exact ⟨_, Kind.ofJson?_eq_some_iff.2 stands, rfl⟩
  · obtain ⟨rfl, notDocument⟩ := Classical.not_imp.1 present
    rw [contentOf?, if_neg notDocument, Option.some.injEq]
    constructor
    · rintro rfl
      exact .nothing fun document => by simpa [document] using notDocument
    · intro means
      cases means with
      | nothing => rfl
      | element present => exact absurd (present rfl) notDocument

theorem Means.unique {other : Option type.kind.Element} (means : type.Means value content)
    (also : type.Means value other) : content = other :=
  Option.some.inj ((contentOf?_eq_some_iff.2 means).symm.trans (contentOf?_eq_some_iff.2 also))

end FieldType

end Columnar
