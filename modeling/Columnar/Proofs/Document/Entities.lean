import Columnar.Proofs.Document.Cells
import Columnar.Proofs.Document.Contents

/-! Special floats in documents. The rows listed beside a column are those of its special floats,
and putting these into the bare cells gives what is left of all cells. -/
namespace Columnar

/-- Only one bit pattern of either sign is infinite. -/
theorem BinaryFormat.bits_of_infinite {format : BinaryFormat} {bits : Nat} {negative : Bool}
    (narrow : bits < 2 * format.signWeight)
    (infinite : format.classify bits = .infinite negative) :
    bits = format.withSign negative format.infinityBits := by
  rw [signWeight, Nat.pow_eq, Nat.pow_add] at narrow
  simp only [classify, signWeight, specialField, Nat.pow_eq, Nat.pow_add] at infinite
  rw [withSign, infinityBits, signWeight, specialField]
  simp only [Nat.pow_eq, Nat.pow_add]
  have positive : 0 < 2 ^ format.fractionBits := Nat.two_pow_pos _
  have some : 0 < 2 ^ format.exponentBits := Nat.two_pow_pos _
  generalize 2 ^ format.fractionBits = places at *
  generalize 2 ^ format.exponentBits = fields at *
  split at infinite
  next field =>
    split at infinite
    next fraction =>
      have small : bits / (places * fields) < 2 :=
        Nat.div_lt_of_lt_mul (by rwa [Nat.mul_comm])
      have whole := Nat.div_add_mod bits places
      have upper := Nat.div_add_mod (bits / places) fields
      rw [Nat.div_div_eq_div_mul, field] at upper
      rw [fraction, ← upper, Nat.add_zero, Nat.mul_add, ← Nat.mul_assoc] at whole
      rw [← FloatClass.infinite.inj infinite]
      generalize bits / (places * fields) = sign at *
      obtain rfl | rfl : sign = 0 ∨ sign = 1 := by omega
      · simpa [Nat.mul_comm places (fields - 1)] using whole.symm
      · simpa [Nat.mul_comm places (fields - 1)] using whole.symm
    · cases infinite
  · split at infinite <;> cases infinite

theorem Binary32.eq_of_infinite {x : Binary32} {negative : Bool}
    (infinite : x.classify = .infinite negative) :
    x = if negative then negInfinity else infinity := by
  have bits := BinaryFormat.bits_of_infinite (UInt32.toNat_lt x.bits) infinite
  obtain ⟨pattern⟩ := x
  cases negative <;> exact congrArg mk (UInt32.toNat_inj.1 bits)

theorem Binary64.eq_of_infinite {x : Binary64} {negative : Bool}
    (infinite : x.classify = .infinite negative) :
    x = if negative then negInfinity else infinity := by
  have bits := BinaryFormat.bits_of_infinite (UInt64.toNat_lt x.bits) infinite
  obtain ⟨pattern⟩ := x
  cases negative <;> exact congrArg mk (UInt64.toNat_inj.1 bits)

/-- A special float of the kind is what is left of the element, whatever bits a nan had. -/
theorem SpecialFloat.element?_of_special {kind : Kind} {x : kind.Element} {special : SpecialFloat}
    (found : kind.special? x = some special) :
    special.element? kind = some (kind.afterDocument x) := by
  cases kind with
  | float32 =>
    rw [Kind.afterDocument, Binary32.isNan]
    rcases class_of_ofClass? found with ⟨rfl, same⟩ | ⟨rfl, same⟩ | ⟨rfl, same⟩
    · rw [same]
      rfl
    · rw [same]
      exact congrArg some (Binary32.eq_of_infinite same).symm
    · rw [same]
      exact congrArg some (Binary32.eq_of_infinite same).symm
  | float64 =>
    rw [Kind.afterDocument, Binary64.isNan]
    rcases class_of_ofClass? found with ⟨rfl, same⟩ | ⟨rfl, same⟩ | ⟨rfl, same⟩
    · rw [same]
      rfl
    · rw [same]
      exact congrArg some (Binary64.eq_of_infinite same).symm
    · rw [same]
      exact congrArg some (Binary64.eq_of_infinite same).symm
  | _ => cases found

/-- What is left of a cell with a special float is the special float. -/
theorem Cell.element?_of_special {type : FieldType} (cell : Cell type) {special : SpecialFloat}
    (found : cell.content.bind type.kind.special? = some special) :
    special.element? type.kind = cell.afterDocument.content := by
  obtain ⟨element, held, found⟩ := Option.bind_eq_some_iff.1 found
  have notNull : ¬(type.nullable = true ∧ type.kind.isNullDocument element = true) := by
    rintro ⟨-, isNull⟩
    have float := Kind.isFloat_of_special found
    rw [Kind.eq_json_of_isNullDocument isNull] at float
    cases float
  rw [content_afterDocument held, if_neg notNull, SpecialFloat.element?_of_special found]

namespace Entities

variable {type : FieldType}

theorem bounds_of_mem_rowsOf {special : SpecialFloat} {start row : Nat} {cells : List (Cell type)}
    (member : row ∈ rowsOf special start cells) : start ≤ row ∧ row < start + cells.length := by
  induction cells generalizing start with
  | nil => cases member
  | cons cell rest ih =>
    have later : row ∈ rowsOf special (start + 1) rest →
        start ≤ row ∧ row < start + (rest.length + 1) := by
      intro member
      have bounds := ih member
      omega
    rw [rowsOf] at member
    split at member
    · rcases List.mem_cons.1 member with rfl | member
      · exact ⟨Nat.le_refl _, by simp⟩
      · exact later member
    · exact later member

/-- The rows of a special float are those of the cells that hold it. -/
theorem mem_rowsOf {special : SpecialFloat} (start : Nat) {row : Nat} {cells : List (Cell type)}
    {cell : Cell type} (here : cells[row]? = some cell) :
    start + row ∈ rowsOf special start cells ↔
      cell.content.bind type.kind.special? = some special := by
  induction cells generalizing start row with
  | nil => cases here
  | cons first rest ih =>
    unfold rowsOf
    cases row with
    | zero =>
      cases here
      -- The rows of the rest begin behind this one, so that it is listed only for its own cell.
      have before : start ∉ rowsOf special (start + 1) rest := by
        intro member
        have bounds := bounds_of_mem_rowsOf member
        omega
      split <;> simp [*]
    | succ row =>
      have shifted : start + (row + 1) = start + 1 + row := by omega
      rw [shifted, ← ih (start + 1) here]
      split
      · rw [List.mem_cons, or_iff_right (by omega)]
      · rfl

/-- A table without rows has no special floats in it. -/
theorem eq_of_isEmpty {entities : Entities} (isEmpty : entities.isEmpty = true) :
    entities = {} := by
  obtain ⟨nan, infinity, negInfinity⟩ := entities
  simp only [Entities.isEmpty, Bool.and_eq_true, List.isEmpty_iff] at isEmpty
  obtain ⟨⟨rfl, rfl⟩, rfl⟩ := isEmpty
  rfl

/-- Only floats have rows listed for them. -/
theorem isEmpty_ofCells {cells : Cells type} (other : type.kind.isFloat = false) :
    (ofCells cells).isEmpty = true := by
  have none : ∀ special, rowsOf special 0 cells.toList = [] := by
    intro special
    rw [List.eq_nil_iff_forall_not_mem]
    intro row member
    have inside := (bounds_of_mem_rowsOf member).2
    rw [Nat.zero_add] at inside
    rw [← Nat.zero_add row, mem_rowsOf 0 (List.getElem?_eq_getElem inside)] at member
    obtain ⟨element, -, found⟩ := Option.bind_eq_some_iff.1 member
    rw [Kind.isFloat_of_special found] at other
    cases other
  simp [ofCells, isEmpty, none]

/-- All rows listed for cells are rows of the cells. -/
theorem small_ofCells {cells : Cells type} (narrow : cells.size ≤ 0x10000000000000000) :
    (ofCells cells).Small := by
  intro row member
  have inside : row < 0 + cells.toList.length := by
    rcases List.mem_append.1 member with member | member
    · rcases List.mem_append.1 member with member | member
      · exact (bounds_of_mem_rowsOf member).2
      · exact (bounds_of_mem_rowsOf member).2
    · exact (bounds_of_mem_rowsOf member).2
  rw [Cells.size] at narrow
  omega

end Entities

namespace DataContent

variable {type : FieldType}

/-- Putting a special float into cells changes just the listed rows. -/
theorem place_eq_ok (field : Nat) (special : SpecialFloat)
    (cells : List (Option type.kind.Element)) {rows : List Nat}
    (inside : ∀ row ∈ rows, row < cells.length) :
    ∃ placed : List (Option type.kind.Element), place field special cells rows = .ok placed ∧
      placed.length = cells.length ∧ ∀ row < cells.length, placed[row]? =
        if row ∈ rows then some (special.element? type.kind) else cells[row]? := by
  induction rows generalizing cells with
  | nil => exact ⟨cells, rfl, rfl, by simp⟩
  | cons first rest ih =>
    have here : first < cells.length := inside first (by simp)
    obtain ⟨placed, ran, length, found⟩ := ih (cells.set first (special.element? type.kind))
      fun row member => by simpa using inside row (by simp [member])
    rw [List.length_set] at length found
    refine ⟨placed, ?_, length, fun row below => ?_⟩
    · rw [place, List.foldlM_cons, if_pos here]
      exact ran
    · rw [found row below, List.getElem?_set]
      by_cases inRest : row ∈ rest
      · rw [if_pos inRest, if_pos (by simp [inRest])]
      · by_cases same : first = row
        · subst same
          simp [inRest, here]
        · rw [if_neg inRest, if_neg same, if_neg (by simp [inRest, Ne.symm same])]

/-- The bare cells with the special floats in their rows are what is left of the cells. -/
theorem placeEntities_ofCells (field : Nat) (cells : Cells type) :
    placeEntities field (cells.toList.map Cell.bareContent) (Entities.ofCells cells) =
      .ok (cells.toList.map fun cell => cell.afterDocument.content) := by
  have inside : ∀ special {length}, length = cells.toList.length →
      ∀ row ∈ Entities.rowsOf special 0 cells.toList, row < length := by
    intro special length same row member
    have below := (Entities.bounds_of_mem_rowsOf member).2
    omega
  have taken : ¬(!(Entities.ofCells cells).isEmpty && !type.kind.isFloat) = true := by
    cases float : type.kind.isFloat with
    | true => simp
    | false => simp [Entities.isEmpty_ofCells float]
  obtain ⟨first, placedNan, firstLength, atNan⟩ := place_eq_ok field .nan
    (cells.toList.map Cell.bareContent) (inside .nan (List.length_map _))
  rw [List.length_map] at firstLength atNan
  obtain ⟨second, placedInfinity, secondLength, atInfinity⟩ :=
    place_eq_ok field .infinity first (inside .infinity firstLength)
  rw [firstLength] at secondLength atInfinity
  obtain ⟨third, placedNegInfinity, thirdLength, atNegInfinity⟩ :=
    place_eq_ok field .negInfinity second (inside .negInfinity secondLength)
  rw [secondLength] at thirdLength atNegInfinity
  have whole : third = cells.toList.map fun cell => cell.afterDocument.content := by
    apply List.ext_getElem?
    intro row
    by_cases below : row < cells.toList.length
    · rw [atNegInfinity row below, atInfinity row below, atNan row below]
      have here := List.getElem?_eq_getElem below
      have listed : ∀ special, row ∈ Entities.rowsOf special 0 cells.toList ↔
          cells.toList[row].content.bind type.kind.special? = some special := by
        intro special
        rw [← Entities.mem_rowsOf 0 here, Nat.zero_add]
      rw [List.getElem?_map, List.getElem?_map, here, Option.map_some, Option.map_some]
      simp only [listed]
      generalize cells.toList[row] = cell
      cases special : cell.content.bind type.kind.special? with
      | none => simp [Cell.bareContent, special]
      | some found =>
        rw [← cell.element?_of_special special]
        cases found <;> rfl
    · rw [List.getElem?_eq_none (by omega), List.getElem?_eq_none (by simpa using below)]
  rw [placeEntities, if_neg taken, ← whole]
  exact bind_eq_ok_iff.2 ⟨first, placedNan, bind_eq_ok_iff.2 ⟨second, placedInfinity,
    placedNegInfinity⟩⟩

end DataContent

end Columnar
