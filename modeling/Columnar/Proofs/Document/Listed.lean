import Columnar.Proofs.Document.Buffered
import Columnar.Proofs.Document.Replacing
import Columnar.Proofs.Document.RoundTrip

/-! Special floats beside the columns they stand in. A float that JSON numbers cannot express and a
cell without anything in it have the same text, so that the table next to the columns is all that
tells them apart: it lists the rows of the special floats and no others. -/
namespace Columnar

/-- A numeral never looks like a null. -/
theorem Numeral.WellFormed.octets_ne_null {n : Numeral} (wellFormed : n.WellFormed) :
    n.octets ≠ Json.null.octets := by
  intro same
  have read := wellFormed.read_octets
  rw [same] at read
  have null : Json.read Json.null.octets = .ok .null := by rfl
  obtain ⟨number, -, isNull⟩ := map_eq_ok_iff.1 (read.symm.trans null)
  cases isNull

/-- The name under which the rows of a special float stand. -/
def SpecialFloat.name : SpecialFloat → String
  | nan => "NaN"
  | infinity => "Inf"
  | negInfinity => "NegInf"

namespace Kind

variable {kind : Kind} {x : kind.Element}

/-- The text of a finite float is a numeral. -/
theorem exists_numeral_document (float : kind.isFloat = true) (finite : kind.special? x = none) :
    ∃ n : Numeral, n.WellFormed ∧ kind.document x = n.octets := by
  cases kind with
  | float32 =>
    obtain ⟨negative, significand, exponent, classified⟩ := SpecialFloat.finite_of_ofClass? finite
    obtain ⟨n, wellFormed, written⟩ :=
      exists_numeral_write .documentSingle .single negative significand exponent
    refine ⟨n, wellFormed, ?_⟩
    rw [document, classified]
    exact written
  | float64 =>
    obtain ⟨negative, significand, exponent, classified⟩ := SpecialFloat.finite_of_ofClass? finite
    have isFinite : Binary64.isFinite x = true := by
      rw [Binary64.isFinite, classified]
    obtain ⟨n, wellFormed, written⟩ := (JsonNumber.real x isFinite).exists_numeral
    refine ⟨n, wellFormed, ?_⟩
    rw [document, Json.ofReal, dif_pos isFinite]
    exact written
  | _ => cases float

end Kind

namespace Cell

variable {type : FieldType}

/-- There is a number in the cell that JSON can express. -/
def HoldsFinite (cell : Cell type) : Prop :=
  ∃ element, cell.content = some element ∧ type.kind.special? element = none

/-- The text of a float is a numeral if it is finite, and else the same as that of nothing. -/
theorem document_float (cell : Cell type) (float : type.kind.isFloat = true) :
    (cell.document = Json.null.octets ↔ ¬cell.HoldsFinite) ∧
      (cell.HoldsFinite → ∃ n : Numeral, n.WellFormed ∧ cell.document = n.octets) := by
  have numeral : cell.HoldsFinite → ∃ n : Numeral, n.WellFormed ∧ cell.document = n.octets := by
    rintro ⟨element, held, finite⟩
    rw [document, held]
    exact Kind.exists_numeral_document float finite
  refine ⟨⟨fun null finite => ?_, fun notFinite => ?_⟩, numeral⟩
  · obtain ⟨n, wellFormed, written⟩ := numeral finite
    exact wellFormed.octets_ne_null (written.symm.trans null)
  · rw [document]
    cases held : cell.content with
    | none => rfl
    | some element =>
      cases special : type.kind.special? element with
      | none => exact absurd ⟨element, held, special⟩ notFinite
      | some found => exact Kind.document_special special

end Cell

namespace Entities

/-- The rows of a special float. -/
def rowsAt (entities : Entities) : SpecialFloat → List Nat
  | .nan => entities.nan
  | .infinity => entities.infinity
  | .negInfinity => entities.negInfinity

theorem rowsAt_ofCells {type : FieldType} (cells : Cells type) (special : SpecialFloat) :
    (ofCells cells).rowsAt special = rowsOf special 0 cells.toList := by
  cases special <;> rfl

theorem isEmpty_iff {entities : Entities} :
    entities.isEmpty = true ↔ ∀ special, entities.rowsAt special = [] := by
  simp only [isEmpty, Bool.and_eq_true, List.isEmpty_iff]
  constructor
  · rintro ⟨⟨nan, infinity⟩, negInfinity⟩ special
    cases special with
    | nan => exact nan
    | infinity => exact infinity
    | negInfinity => exact negInfinity
  · exact fun all => ⟨⟨all .nan, all .infinity⟩, all .negInfinity⟩

/-- The rows of a special float stand under its name, unless there are none. -/
theorem member?_toJson (entities : Entities) (special : SpecialFloat) :
    entities.toJson.member? special.name = if entities.rowsAt special = [] then none
      else some (.list ((entities.rowsAt special).map Json.ofNat)) := by
  obtain ⟨nan, infinity, negInfinity⟩ := entities
  -- Whether a name is there does not depend on the other ones, which may be there or not.
  cases special <;> cases nan <;> cases infinity <;> cases negInfinity <;> rfl

/-- The rows of a special float are listed from the first one on. -/
theorem pairwise_rowsOf {type : FieldType} (special : SpecialFloat) (start : Nat)
    (cells : List (Cell type)) : (rowsOf special start cells).Pairwise (· < ·) := by
  induction cells generalizing start with
  | nil => exact .nil
  | cons cell rest ih =>
    rw [rowsOf]
    split
    · exact .cons (fun row member => (bounds_of_mem_rowsOf member).1) (ih (start + 1))
    · exact ih (start + 1)

end Entities

namespace Column

/-- The cell at the row holds the special float. -/
def Holds (column : Column) (special : SpecialFloat) (row : Nat) : Prop :=
  ∃ cell, column.cells.toList[row]? = some cell ∧
    cell.content.bind column.type.kind.special? = some special

/-- The column has a cell with a special float in it. -/
def HasSpecial (column : Column) : Prop := ∃ special row, column.Holds special row

/-- The rows of a column that are listed for each of the special floats. -/
structure Lists (column : Column) (rows : SpecialFloat → List Nat) : Prop where
  ascending : ∀ special, (rows special).Pairwise (· < ·)
  disjoint : ∀ first second row, row ∈ rows first → row ∈ rows second → first = second
  mem_iff : ∀ special row, row ∈ rows special ↔ column.Holds special row

/-- The entry of a column in the table: a null for a column without special floats, and else an object
with the rows that are not none under their names. -/
structure Enters (column : Column) (rows : SpecialFloat → List Nat) (entry : Json) : Prop where
  null_iff : entry = .null ↔ ¬column.HasSpecial
  under : ∀ special, entry.member? special.name =
    if rows special = [] then none else some (.list ((rows special).map Json.ofNat))

variable {column : Column} {special : SpecialFloat} {row : Nat}

/-- Only columns of floats have special floats in them. -/
theorem isFloat_of_holds (holds : column.Holds special row) : column.type.kind.isFloat = true := by
  obtain ⟨cell, -, found⟩ := holds
  obtain ⟨element, -, found⟩ := Option.bind_eq_some_iff.1 found
  exact Kind.isFloat_of_special found

/-- The rows of the special floats of a column. -/
def rowsOf (column : Column) (special : SpecialFloat) : List Nat :=
  Entities.rowsOf special 0 column.cells.toList

theorem mem_rowsOf_iff : row ∈ column.rowsOf special ↔ column.Holds special row := by
  constructor
  · intro member
    have inside := (Entities.bounds_of_mem_rowsOf member).2
    rw [Nat.zero_add] at inside
    have here := List.getElem?_eq_getElem inside
    rw [rowsOf, ← Nat.zero_add row, Entities.mem_rowsOf 0 here] at member
    exact ⟨_, here, member⟩
  · rintro ⟨cell, here, found⟩
    rw [rowsOf, ← Nat.zero_add row, Entities.mem_rowsOf 0 here]
    exact found

theorem lists_rowsOf (column : Column) : column.Lists column.rowsOf where
  ascending special := Entities.pairwise_rowsOf special 0 column.cells.toList
  disjoint first second row inFirst inSecond := by
    obtain ⟨cell, here, found⟩ := mem_rowsOf_iff.1 inFirst
    obtain ⟨other, there, foundOther⟩ := mem_rowsOf_iff.1 inSecond
    cases here.symm.trans there
    exact Option.some.inj (found.symm.trans foundOther)
  mem_iff special row := mem_rowsOf_iff

theorem isEmpty_ofCells_iff : (Entities.ofCells column.cells).isEmpty = true ↔
    ¬column.HasSpecial := by
  have same : ∀ special, (Entities.ofCells column.cells).rowsAt special = column.rowsOf special :=
    fun special => Entities.rowsAt_ofCells column.cells special
  simp only [Entities.isEmpty_iff, same, HasSpecial, List.eq_nil_iff_forall_not_mem,
    mem_rowsOf_iff, not_exists]

theorem entities?_eq_none_iff : column.entities? = none ↔ ¬column.HasSpecial := by
  rw [← isEmpty_ofCells_iff, entities?]
  split <;> simp [*]

theorem enters_entities? (column : Column) :
    column.Enters column.rowsOf (Entities.entryJson column.entities?) := by
  by_cases has : column.HasSpecial
  · have some : column.entities? = some (Entities.ofCells column.cells) := by
      rw [entities?, if_neg (mt isEmpty_ofCells_iff.1 (not_not_intro has))]
    rw [some]
    refine ⟨⟨fun null => ?_, fun none => absurd has none⟩, fun special => ?_⟩
    · cases null
    · rw [Entities.entryJson, Entities.member?_toJson, Entities.rowsAt_ofCells]
      rfl
  · have none : column.entities? = none := entities?_eq_none_iff.2 has
    rw [none]
    refine ⟨⟨fun _ => has, fun _ => rfl⟩, fun special => (if_pos ?_).symm⟩
    rw [List.eq_nil_iff_forall_not_mem]
    exact fun row member => has ⟨special, row, mem_rowsOf_iff.1 member⟩

end Column

namespace Frame

/-- The data section of a frame with its table of special floats, if it has one. The table is there
for the special floats alone and is aligned with the fields. -/
structure WrittenWith (frame : Frame) (table : Option (List Json)) : Prop where
  text : frame.writeData.Writes (Json.objectOctets
    (("fields", Json.listOctets (frame.columns.map fun column =>
        Json.listOctets (column.cells.toList.map Cell.document)))
      :: (table.map fun entries => ("entities", (Json.list entries).octets)).toList)) ()
  floats : ∀ column ∈ frame.columns, column.type.kind.isFloat = true →
    ∀ cell ∈ column.cells.toList, (cell.document = Json.null.octets ↔ ¬cell.HoldsFinite) ∧
      (cell.HoldsFinite → ∃ n : Numeral, n.WellFormed ∧ cell.document = n.octets)
  others : ∀ column ∈ frame.columns, column.type.kind.isFloat = false → ¬column.HasSpecial
  present : table.isSome = true ↔ ∃ column ∈ frame.columns, column.HasSpecial
  entries : ∀ entries ∈ table, List.Forall₂
    (fun column entry => ∃ rows, column.Lists rows ∧ column.Enters rows entry)
    frame.columns entries

variable {frame : Frame}

theorem writes_writeData {rows : Nat} (even : ∀ column ∈ frame.columns, column.size = rows) :
    frame.writeData.Writes (Json.objectOctets
      (("fields", Json.listOctets (frame.columns.map Column.document))
        :: (frame.entityTable?.map fun table => ("entities", table.octets)).toList)) () := by
  have written : frame.dataSection = .ok (Json.objectOctets
      (("fields", Json.listOctets (frame.columns.map Column.document))
        :: (frame.entityTable?.map fun table => ("entities", table.octets)).toList)) := by
    rw [dataSection, checkLengths_of_even even, columns, List.map_map]
    cases frame.entityTable? <;> rfl
  have follows := frame.follows_writeData
  rw [written] at follows
  exact follows

private theorem all_isNone_iff (columns : List Column) :
    columns.all (fun column => column.entities?.isNone) = true ↔
      ¬∃ column ∈ columns, column.HasSpecial := by
  simp only [List.all_eq_true, Option.isNone_iff_eq_none, Column.entities?_eq_none_iff, not_exists,
    not_and]

theorem entityTable?_of_none (nothing : ¬∃ column ∈ frame.columns, column.HasSpecial) :
    frame.entityTable? = none := by
  rw [entityTable?_eq, DataContent.tableOf, if_pos ((all_isNone_iff _).2 nothing)]
  rfl

theorem entityTable?_of_special (has : ∃ column ∈ frame.columns, column.HasSpecial) :
    frame.entityTable? =
      some (.list (frame.columns.map fun column => Entities.entryJson column.entities?)) := by
  have some : ¬(frame.columns.map Column.entities?).isEmpty = true := by
    obtain ⟨column, member, -⟩ := has
    simp [List.ne_nil_of_mem member]
  rw [entityTable?_eq, DataContent.tableOf, if_neg (mt (all_isNone_iff _).1 (not_not_intro has)),
    if_neg some, List.map_map]
  rfl

/-- The table next to the columns lists the special floats and nothing else. -/
theorem writeData_listed {rows : Nat} (even : ∀ column ∈ frame.columns, column.size = rows) :
    ∃ table, frame.WrittenWith table := by
  have text := writes_writeData even
  have floats : ∀ column ∈ frame.columns, column.type.kind.isFloat = true →
      ∀ cell ∈ column.cells.toList, (cell.document = Json.null.octets ↔ ¬cell.HoldsFinite) ∧
        (cell.HoldsFinite → ∃ n : Numeral, n.WellFormed ∧ cell.document = n.octets) :=
    fun column _ float cell _ => cell.document_float float
  have others : ∀ column ∈ frame.columns, column.type.kind.isFloat = false →
      ¬column.HasSpecial := by
    rintro column - other ⟨special, row, holds⟩
    rw [Column.isFloat_of_holds holds] at other
    cases other
  by_cases has : ∃ column ∈ frame.columns, column.HasSpecial
  · rw [entityTable?_of_special has] at text
    refine ⟨some _, text, floats, others, iff_of_true rfl has, ?_⟩
    rintro entries ⟨⟩
    refine List.forall₂_map_right_iff.2 (List.forall₂_same.2 fun column _ => ?_)
    exact ⟨column.rowsOf, column.lists_rowsOf, column.enters_entities?⟩
  · rw [entityTable?_of_none has] at text
    exact ⟨none, text, floats, others, iff_of_false nofun has, nofun⟩

private theorem depth_nullable : (⟨.float64, true⟩ : FieldType).nullable = true := rfl

/-- Depths with a gap and two special floats, and speeds with another one; stations are no floats. -/
def soundings : Frame where
  fields :=
    [⟨"depth", Labels.empty, none, ⟨⟨.float64, true⟩,
        ⟨[Cell.empty depth_nullable, Cell.of Binary64.nan, Cell.of (⟨0x3FF8000000000000⟩ : Binary64),
          Cell.of Binary64.negInfinity]⟩⟩⟩,
      ⟨"station", Labels.empty, none,
        ⟨⟨.string, false⟩, ⟨[Cell.of "quay", Cell.of "NaN", Cell.of "null", Cell.of "lock"]⟩⟩⟩,
      ⟨"speed", Labels.empty, none, ⟨⟨.float32, false⟩,
        ⟨[Cell.of Binary32.infinity, Cell.of Binary32.nan, Cell.of (⟨0x3FC00000⟩ : Binary32),
          Cell.of Binary32.infinity]⟩⟩⟩]

theorem writeData_listed_soundings : (∀ column ∈ soundings.columns, column.size = 4) ∧
    soundings.entityTable? = some (.list
      [.object [("NaN", .list [Json.ofNat 1]), ("NegInf", .list [Json.ofNat 3])], .null,
        .object [("NaN", .list [Json.ofNat 1]), ("Inf", .list [Json.ofNat 0, Json.ofNat 3])]]) ∧
    ∃ table, soundings.WrittenWith table := by
  have even : ∀ column ∈ soundings.columns, column.size = 4 := by decide
  exact ⟨even, by rfl, writeData_listed even⟩

end Frame

end Columnar
