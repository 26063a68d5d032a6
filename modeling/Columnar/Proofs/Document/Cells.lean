import Columnar.Document.Reading
import Columnar.Document.Writing
import Columnar.Proofs.Cells
import Columnar.Proofs.Json.Spelled
import Columnar.Proofs.Time.Counts

/-! Cells in documents. A document keeps the milliseconds of a time, the value of a document held in
a cell, and everything of any other element; a special float is a null at its place and listed
beside the column. -/
namespace Columnar

open Json (SpelledBy spelledBy_octets)

/-- The reader of numbers returns a number that is rounded to the float that was written. -/
def Binary32.ReadsBack (x : Binary32) : Prop :=
  ∃ number, Json.read (Json.ascii (NumberLayout.documentSingle.write .single x.classify)) =
      .ok (.number number) ∧ ofBinary64 number.toBinary64 = x

namespace Kind

/-- What a document can say of an element: a time that is no leap second, and a document whose
value can be read. -/
def Expressible : (kind : Kind) → kind.Element → Prop
  | time, t => Instant.nano t < nanosPerSecond
  | json, raw => ∃ value, RawJson.value raw = .ok value
  | _, _ => True

/-- The reader of numbers returns the finite float that was written. -/
def ReadsBack : (kind : Kind) → kind.Element → Prop
  | float32, x => special? .float32 x = none → Binary32.ReadsBack x
  | float64, x => ∀ finite, (JsonNumber.real x finite).ReadsBack
  | _, _ => True

/-- The element that is left of an element after writing and reading it. -/
def afterDocument : (kind : Kind) → kind.Element → kind.Element
  | float32, x => if Binary32.isNan x then Binary32.nan else x
  | float64, x => if Binary64.isNan x then Binary64.nan else x
  | time, t => Instant.floorToMillis t
  | json, raw =>
    match RawJson.value raw with
    | .ok value => RawJson.ofValue value
    | .error _ => raw
  | _, x => x

/-- Whether an element is a document of null. -/
def isNullDocument : (kind : Kind) → kind.Element → Bool
  | json, raw =>
    match RawJson.value raw with
    | .ok .null => true
    | _ => false
  | _, _ => false

end Kind

section Integers

variable {α : Type}

/-- An integer of a kind with sign is found again in its number. -/
private theorem signed_read {toInt : α → Int} {ofInt : Int → α} {low high : Int} (x : α)
    (inverse : ofInt (toInt x) = x) (least : low ≤ toInt x) (most : toInt x ≤ high)
    (lowest : -0x8000000000000000 ≤ low) (highest : high < 0x8000000000000000) :
    ∃ inRange,
      ((Json.number (.whole (toInt x) inRange)).integerWithin? low high).map ofInt = some x := by
  refine ⟨by omega, ?_⟩
  have within : decide (low ≤ toInt x ∧ toInt x ≤ high) = true := decide_eq_true ⟨least, most⟩
  rw [Json.integerWithin?, Json.signed?, JsonNumber.signed?, if_pos (by omega),
    Option.filter_some, if_pos within, Option.map_some, inverse]

/-- An integer of a kind without sign is found again in its number. -/
private theorem natural_read {toNat : α → Nat} {ofNat : Nat → α} {bound : Nat} (x : α)
    (inverse : ofNat (toNat x) = x) (below : toNat x < bound)
    (narrow : bound ≤ 0x10000000000000000) :
    ∃ inRange,
      ((Json.number (.whole (toNat x) inRange)).naturalBelow? bound).map ofNat = some x := by
  refine ⟨by omega, ?_⟩
  rw [Json.naturalBelow?, Json.natural?, JsonNumber.natural?, if_pos (by omega),
    Int.toNat_natCast, Option.filter_some, if_pos (decide_eq_true below), Option.map_some, inverse]

/-- The number of an integer stands for the integer. -/
theorem ofJson?_integer {kind : Kind} {x : kind.Element} {n : Int}
    (integer : kind.integer? x = some n) :
    ∃ inRange, kind.ofJson? (.number (.whole n inRange)) = some x := by
  cases kind with
  | int8 =>
    cases integer
    have most := Int8.toInt_lt x
    exact signed_read x (Int8.ofInt_toInt x) (Int8.le_toInt x) (by omega) (by decide) (by decide)
  | int16 =>
    cases integer
    have most := Int16.toInt_lt x
    exact signed_read x (Int16.ofInt_toInt x) (Int16.le_toInt x) (by omega) (by decide) (by decide)
  | int32 =>
    cases integer
    have most := Int32.toInt_lt x
    exact signed_read x (Int32.ofInt_toInt x) (Int32.le_toInt x) (by omega) (by decide) (by decide)
  | int64 =>
    cases integer
    have least := Int64.le_toInt x
    have most := Int64.toInt_lt x
    refine ⟨by omega, ?_⟩
    rw [Kind.ofJson?, Json.signed?, JsonNumber.signed?, if_pos (by omega)]
    exact congrArg some (Int64.ofInt_toInt x)
  | uint64 =>
    cases integer
    have below := UInt64.toNat_lt x
    refine ⟨by omega, ?_⟩
    rw [Kind.ofJson?, Json.natural?, JsonNumber.natural?, if_pos (by omega)]
    exact congrArg some UInt64.ofNat_toNat
  | uint8 =>
    cases integer
    exact natural_read x UInt8.ofNat_toNat (UInt8.toNat_lt x) (by decide)
  | uint16 | enum =>
    cases integer
    exact natural_read x UInt16.ofNat_toNat (UInt16.toNat_lt x) (by decide)
  | uint32 =>
    cases integer
    exact natural_read x UInt32.ofNat_toNat (UInt32.toNat_lt x) (by decide)
  | _ => cases integer

end Integers

theorem SpecialFloat.finite_of_ofClass? {c : FloatClass} (none : ofClass? c = none) :
    ∃ negative significand exponent, c = .finite negative significand exponent := by
  cases c with
  | nan => cases none
  | infinite negative => cases negative <;> cases none
  | finite negative significand exponent => exact ⟨negative, significand, exponent, rfl⟩

theorem SpecialFloat.class_of_ofClass? {c : FloatClass} {special : SpecialFloat}
    (found : ofClass? c = some special) :
    special = .nan ∧ c = .nan ∨ special = .infinity ∧ c = .infinite false ∨
      special = .negInfinity ∧ c = .infinite true := by
  cases c with
  | nan =>
    cases found
    exact .inl ⟨rfl, rfl⟩
  | infinite negative =>
    cases negative with
    | false =>
      cases found
      exact .inr (.inl ⟨rfl, rfl⟩)
    | true =>
      cases found
      exact .inr (.inr ⟨rfl, rfl⟩)
  | finite => cases found

/-- The text of an element that is no special float stands for what is left of the element. -/
theorem Kind.document_spelled {kind : Kind} {x : kind.Element} (expressible : kind.Expressible x)
    (readsBack : kind.ReadsBack x) (plain : kind.special? x = none) :
    ∃ value : Json, value.SpelledBy (kind.document x) ∧ value.Ordered ∧
      kind.ofJson? value = some (kind.afterDocument x) ∧
      (value = .null ↔ kind.isNullDocument x = true) := by
  cases kind with
  | float32 =>
    obtain ⟨number, read, same⟩ := readsBack plain
    obtain ⟨negative, significand, exponent, finite⟩ := SpecialFloat.finite_of_ofClass? plain
    obtain ⟨n, wellFormed, written⟩ :=
      exists_numeral_write .documentSingle .single negative significand exponent
    have text : Kind.document .float32 x = n.octets := by
      rw [document, finite]
      exact written
    have notNan : Binary32.isNan x = false := by
      rw [Binary32.isNan, finite]
      rfl
    rw [finite, written] at read
    refine ⟨.number number, ?_, trivial, ?_, by simp [isNullDocument]⟩
    · rw [text]
      exact Json.spelledBy_numeral wellFormed read
    · rw [ofJson?, Json.real?, Option.map_some, same, afterDocument, notNan]
      rfl
  | float64 =>
    obtain ⟨negative, significand, exponent, classified⟩ := SpecialFloat.finite_of_ofClass? plain
    have finite : Binary64.isFinite x = true := by
      rw [Binary64.isFinite, classified]
    have notNan : Binary64.isNan x = false := by
      rw [Binary64.isNan, classified]
      rfl
    refine ⟨.number (.real x finite), ?_, trivial, ?_, by simp [isNullDocument]⟩
    · rw [document, Json.ofReal, dif_pos finite]
      apply spelledBy_octets (.number (.real x finite)) trivial
      intro number member
      rcases List.mem_singleton.1 member with rfl
      exact readsBack finite
    · rw [afterDocument, notNan]
      rfl
  | string =>
    exact ⟨.string x, spelledBy_octets (.string x) trivial (List.forall_mem_nil _), trivial,
      rfl, by simp [isNullDocument]⟩
  | bool =>
    exact ⟨.bool x, spelledBy_octets (.bool x) trivial (List.forall_mem_nil _), trivial,
      rfl, by simp [isNullDocument]⟩
  | time =>
    have noLeap : Instant.nano x < nanosPerSecond := expressible
    have inRange := Instant.millis_bounds x
    refine ⟨.number (.whole (Instant.millis x) (by omega)), Json.spelledBy_integerChars _, trivial,
      ?_, by simp [isNullDocument]⟩
    simp only [ofJson?, Json.instant?, JsonNumber.signed?, if_pos inRange.2]
    exact Instant.ofMillis?_millis noLeap
  | json =>
    obtain ⟨value, read⟩ := expressible
    have ordered := Draft.ordered_toJson _ (Json.toJson_of_raw read)
    refine ⟨value, Json.spelledBy_raw read, ordered, ?_, ?_⟩
    · simp only [ofJson?, afterDocument, read]
    · simp only [isNullDocument, read]
      cases value <;> simp
  | _ =>
    obtain ⟨inRange, read⟩ := ofJson?_integer (x := x) rfl
    exact ⟨_, Json.spelledBy_integerChars inRange, trivial, read, by simp [isNullDocument]⟩

namespace Kind

variable {kind : Kind} {x : kind.Element}

theorem eq_json_of_isNullDocument (isNull : kind.isNullDocument x = true) : kind = .json := by
  cases kind with
  | json => rfl
  | _ => cases isNull

theorem isFloat_of_special {special : SpecialFloat} (found : kind.special? x = some special) :
    kind.isFloat = true := by
  cases kind with
  | float32 | float64 => rfl
  | _ => cases found

/-- A special float is written as a null. -/
theorem document_special {special : SpecialFloat} (found : kind.special? x = some special) :
    kind.document x = Json.null.octets := by
  cases kind with
  | float32 =>
    have here : SpecialFloat.ofClass? (Binary32.classify x) = some special := found
    rw [document, here]
  | float64 =>
    have infinite : ¬Binary64.isFinite x = true := by
      rw [Binary64.isFinite]
      rcases SpecialFloat.class_of_ofClass? found with ⟨-, same⟩ | ⟨-, same⟩ | ⟨-, same⟩ <;>
        simp [same]
    rw [document, Json.ofReal, dif_neg infinite]
  | _ => cases found

end Kind

namespace Cell

variable {type : FieldType}

/-- The cell that is left of a cell after writing and reading it: where nulls are allowed, a
document of null is nothing. -/
def afterDocument (cell : Cell type) : Cell type :=
  match cell.content with
  | none => cell
  | some element =>
    if nothing : type.nullable = true ∧ type.kind.isNullDocument element = true then
      empty nothing.1
    else of (type.kind.afterDocument element)

theorem content_afterDocument_none {cell : Cell type} (nothing : cell.content = none) :
    cell.afterDocument.content = none := by
  rw [afterDocument, nothing]
  exact nothing

theorem content_afterDocument {cell : Cell type} {element : type.kind.Element}
    (held : cell.content = some element) : cell.afterDocument.content =
      if type.nullable = true ∧ type.kind.isNullDocument element = true then none
      else some (type.kind.afterDocument element) := by
  rw [afterDocument, held]
  dsimp only
  split <;> rfl

/-- What the text of a cell alone says of its content; special floats stand elsewhere. -/
def bareContent (cell : Cell type) : Option type.kind.Element :=
  if (cell.content.bind type.kind.special?).isSome then none else cell.afterDocument.content

/-- The text of a cell stands for its bare content. -/
theorem document_spelled {cell : Cell type}
    (expressible : ∀ element ∈ cell.content, type.kind.Expressible element)
    (readsBack : ∀ element ∈ cell.content, type.kind.ReadsBack element) :
    ∃ value : Json, value.SpelledBy cell.document ∧ value.Ordered ∧
      type.contentOf? value = some cell.bareContent := by
  have null : Json.null.SpelledBy Json.null.octets :=
    spelledBy_octets .null trivial (List.forall_mem_nil _)
  cases held : cell.content with
  | none =>
    have allowed := cell.nullable_of_content_none held
    refine ⟨.null, by rw [document, held]; exact null, trivial, ?_⟩
    rw [bareContent, held, content_afterDocument_none held]
    simp [FieldType.contentOf?, allowed]
  | some element =>
    rw [held] at expressible readsBack
    cases special : type.kind.special? element with
    | some found =>
      have notJson : type.kind ≠ .json := by
        intro same
        have float := Kind.isFloat_of_special special
        rw [same] at float
        cases float
      refine ⟨.null, ?_, trivial, ?_⟩
      · rw [document, held]
        dsimp only
        rw [Kind.document_special special]
        exact null
      · simp [FieldType.contentOf?, bareContent, held, special, notJson]
    | none =>
      obtain ⟨value, spelled, ordered, read, isNull⟩ :=
        Kind.document_spelled (expressible element rfl) (readsBack element rfl) special
      refine ⟨value, by rw [document, held]; exact spelled, ordered, ?_⟩
      rw [bareContent, content_afterDocument held, held, Option.bind_some, special,
        Option.isSome_none, if_neg Bool.false_ne_true]
      by_cases nothing : value = .null
      · subst nothing
        have isNull := isNull.1 rfl
        have isJson := Kind.eq_json_of_isNullDocument isNull
        cases nullable : type.nullable with
        | true => simp [FieldType.contentOf?, nullable, isNull]
        | false => simp [FieldType.contentOf?, nullable, isJson, read]
      · have notNull : type.kind.isNullDocument element ≠ true := by
          intro null
          exact nothing (isNull.2 null)
        rw [if_neg (fun both => notNull both.2)]
        cases value with
        | null => exact absurd rfl nothing
        | _ => exact congrArg (Option.map some) read

end Cell

end Columnar
