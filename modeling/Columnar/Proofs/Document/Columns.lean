import Columnar.Proofs.Document.Entities
import Columnar.Proofs.Pivot.Rows

/-! Columns in documents. A column is an array of the texts of its cells, and the rows of its
special floats stand in a table next to the arrays. -/
namespace Columnar

open Json (SpelledBy)

namespace DataContent

variable {type : FieldType}

/-- Values that stand for contents are read as the contents. -/
theorem contents_eq_ok {α : Type} {content : α → Option type.kind.Element} {items : List α}
    {values : List Json} (all : List.Forall₂
      (fun item value => type.contentOf? value = some (content item)) items values)
    (field row : Nat) : contents field type row values = .ok (items.map content) := by
  induction all generalizing row with
  | nil => rfl
  | cons here _ ih =>
    rw [contents, here, ih]
    rfl

theorem requireCell_content (field : Nat) (cell : Cell type) :
    requireCell field cell.content = .ok cell := by
  obtain ⟨content, present⟩ := cell
  cases content with
  | none => exact dif_pos (Cell.nullable_of_content_none ⟨none, present⟩ rfl)
  | some element => rfl

end DataContent

namespace Column

/-- The column that is left of a column after writing and reading it. -/
def afterDocument (column : Column) : Column :=
  ⟨column.type, ⟨column.cells.toList.map Cell.afterDocument⟩⟩

/-- A document can express all elements of the column. -/
def Expressible (column : Column) : Prop :=
  ∀ cell ∈ column.cells.toList, ∀ element ∈ cell.content, column.type.kind.Expressible element

/-- The reader of numbers returns all floats of the column. -/
def ReadsBack (column : Column) : Prop :=
  ∀ cell ∈ column.cells.toList, ∀ element ∈ cell.content, column.type.kind.ReadsBack element

/-- The entry of the column in the table of special floats. -/
def entities? (column : Column) : Option Entities :=
  let entities := Entities.ofCells column.cells
  if entities.isEmpty then none else some entities

/-- The values stand for the bare cells of the column. -/
def Bare (column : Column) (values : List Json) : Prop :=
  (∀ value ∈ values, value.Ordered) ∧ List.Forall₂
    (fun cell value => column.type.contentOf? value = some (Cell.bareContent cell))
    column.cells.toList values

/-- The text of a column stands for the list of values that stand for its bare cells. -/
theorem document_spelled {column : Column} (expressible : column.Expressible)
    (readsBack : column.ReadsBack) :
    ∃ values, (Json.list values).SpelledBy column.document ∧ column.Bare values := by
  obtain ⟨type, ⟨cells⟩⟩ := column
  have parts : ∃ values, List.Forall₂ SpelledBy values (cells.map Cell.document) ∧
      Bare ⟨type, ⟨cells⟩⟩ values := by
    induction cells with
    | nil => exact ⟨[], .nil, List.forall_mem_nil _, .nil⟩
    | cons cell rest ih =>
      obtain ⟨value, spelled, ordered, read⟩ :=
        Cell.document_spelled (expressible cell (by simp)) (readsBack cell (by simp))
      obtain ⟨values, spelledLater, orderedLater, readLater⟩ :=
        ih (fun other member => expressible other (by simp [member]))
          (fun other member => readsBack other (by simp [member]))
      exact ⟨value :: values, .cons spelled spelledLater,
        List.forall_mem_cons.2 ⟨ordered, orderedLater⟩, .cons read readLater⟩
  obtain ⟨values, spelled, bare⟩ := parts
  exact ⟨values, Json.spelledBy_list spelled, bare⟩

/-- The texts of columns stand for the lists of values that stand for their bare cells. -/
theorem documents_spelled {columns : List Column}
    (expressible : ∀ column ∈ columns, column.Expressible)
    (readsBack : ∀ column ∈ columns, column.ReadsBack) :
    ∃ values, List.Forall₂ Bare columns values ∧
      (Json.list (values.map Json.list)).SpelledBy
        (Json.listOctets (columns.map Column.document)) := by
  have parts : ∃ values, List.Forall₂ Bare columns values ∧
      List.Forall₂ SpelledBy (values.map Json.list) (columns.map Column.document) := by
    induction columns with
    | nil => exact ⟨[], .nil, .nil⟩
    | cons column rest ih =>
      obtain ⟨values, spelled, bare⟩ :=
        document_spelled (expressible column (by simp)) (readsBack column (by simp))
      obtain ⟨others, bareLater, spelledLater⟩ :=
        ih (fun other member => expressible other (by simp [member]))
          (fun other member => readsBack other (by simp [member]))
      exact ⟨values :: others, .cons bare bareLater, .cons spelled spelledLater⟩
  obtain ⟨values, bare, spelled⟩ := parts
  exact ⟨values, bare, Json.spelledBy_list spelled⟩

/-- The values and the entry of a column are read as what is left of the column. -/
theorem column_of_bare {column : Column} {values : List Json} (bare : column.Bare values)
    (position : Nat) :
    DataContent.column position column.type values column.entities? = .ok column.afterDocument := by
  obtain ⟨type, ⟨cells⟩⟩ := column
  have placed := DataContent.placeEntities_ofCells position (⟨cells⟩ : Cells type)
  have required : (cells.map fun cell => cell.afterDocument.content).mapM
      (DataContent.requireCell position) = .ok (cells.map Cell.afterDocument) := by
    refine mapM_eq_ok_iff.2 (List.forall₂_map_left_iff.2 (List.forall₂_map_right_iff.2 ?_))
    exact List.forall₂_same.2 fun cell _ => DataContent.requireCell_content position _
  have contents := DataContent.contents_eq_ok bare.2 position 0
  unfold entities?
  by_cases isEmpty : (Entities.ofCells (⟨cells⟩ : Cells type)).isEmpty = true
  · rw [Entities.eq_of_isEmpty isEmpty] at placed
    rw [if_pos isEmpty]
    exact bind_eq_ok_iff.2 ⟨_, contents, bind_eq_ok_iff.2 ⟨_, placed,
      bind_eq_ok_iff.2 ⟨_, required, rfl⟩⟩⟩
  · rw [if_neg isEmpty]
    exact bind_eq_ok_iff.2 ⟨_, contents, bind_eq_ok_iff.2 ⟨_, placed,
      bind_eq_ok_iff.2 ⟨_, required, rfl⟩⟩⟩

end Column

namespace DataContent

/-- The table of special floats of columns, left out when there are none. -/
def tableOf (columns : List Column) : List (Option Entities) :=
  if columns.all fun column => column.entities?.isNone then [] else columns.map Column.entities?

/-- A table lists the entries of columns: one after the other, or nothing when none is there. -/
private def Lists (table : List (Option Entities)) (columns : List Column) : Prop :=
  table = columns.map Column.entities? ∨
    table = [] ∧ ∀ column ∈ columns, column.entities? = none

private theorem lists_tableOf (columns : List Column) : Lists (tableOf columns) columns := by
  unfold tableOf
  split
  next all =>
    refine .inr ⟨rfl, fun column member => ?_⟩
    simpa using List.all_eq_true.1 all column member
  · exact .inl rfl

private theorem columnsFrom_eq_ok {columns : List Column} {values : List (List Json)}
    {table : List (Option Entities)} (bare : List.Forall₂ Column.Bare columns values)
    (lists : Lists table columns) (position : Nat) :
    columnsFrom position (columns.map Column.type) values table =
      .ok (columns.map Column.afterDocument) := by
  induction bare generalizing position table with
  | nil => rfl
  | @cons column values columns others here _ ih =>
    have parts : table.head?.join = column.entities? ∧ Lists table.tail columns := by
      rcases lists with rfl | ⟨rfl, none⟩
      · exact ⟨rfl, .inl rfl⟩
      · have later : ∀ other ∈ columns, other.entities? = Option.none := by
          intro other member
          exact none other (by simp [member])
        exact ⟨(none column (by simp)).symm, .inr ⟨rfl, later⟩⟩
    obtain ⟨entry, later⟩ := parts
    have first := Column.column_of_bare here position
    rw [← entry] at first
    exact bind_eq_ok_iff.2 ⟨_, first, bind_eq_ok_iff.2 ⟨_, ih later (position + 1), rfl⟩⟩

/-- The columns of a data section are read from as many values as there are types and from no more
entries, and are of one length. -/
theorem columnsOf_eq_ok_iff {data : DataContent} {types : List FieldType} {columns : List Column} :
    data.columnsOf types = .ok columns ↔
      data.columns.length = types.length ∧ data.entities.length ≤ types.length ∧
        columnsFrom 0 types data.columns data.entities = .ok columns ∧
          ∀ column ∈ columns, ∀ other ∈ columns, column.size = other.size := by
  constructor
  · intro ran
    unfold columnsOf at ran
    split at ran
    · cases ran
    next count =>
      split at ran
      · cases ran
      next entries =>
        obtain ⟨found, read, ran⟩ := bind_eq_ok_iff.1 ran
        have done : found = columns ∧
            ∀ column ∈ found, ∀ other ∈ found, column.size = other.size := by
          split at ran
          next nothing =>
            cases ran
            rw [List.map_eq_nil_iff] at nothing
            simp [nothing]
          next first rest sizes =>
            split at ran
            next even =>
              cases ran
              rw [firstUneven?_eq_none] at even
              have size : ∀ column ∈ columns, column.size = first := by
                rw [← List.forall_mem_map (P := fun size => size = first), sizes]
                exact List.forall_mem_cons.2 ⟨rfl, even⟩
              exact ⟨rfl, fun column member other also =>
                (size column member).trans (size other also).symm⟩
            · cases ran
        obtain ⟨rfl, even⟩ := done
        exact ⟨not_not.1 count, Nat.le_of_not_lt entries, read, even⟩
  · rintro ⟨count, entries, read, even⟩
    rw [columnsOf, if_neg (not_not_intro count), if_neg (Nat.not_lt_of_le entries)]
    refine bind_eq_ok_iff.2 ⟨columns, read, ?_⟩
    split
    · rfl
    next first rest sizes =>
      have uneven : firstUneven? first 1 rest = none := by
        have all : ∀ size ∈ columns.map Column.size, ∀ other ∈ columns.map Column.size,
            size = other := by
          simpa only [List.forall_mem_map] using even
        rw [sizes] at all
        exact firstUneven?_eq_none.2 fun size member => all size (by simp [member]) first (by simp)
      rw [uneven]
      rfl

/-- The values and the table of columns of one length are read as what is left of the columns. -/
theorem columnsOf_eq_ok {columns : List Column} {values : List (List Json)}
    (bare : List.Forall₂ Column.Bare columns values) {rows : Nat}
    (even : ∀ column ∈ columns, column.size = rows) :
    columnsOf ⟨values, tableOf columns⟩ (columns.map Column.type) =
      .ok (columns.map Column.afterDocument) := by
  have count : values.length = (columns.map Column.type).length := by
    rw [List.length_map, bare.length_eq]
  have fits : (tableOf columns).length ≤ (columns.map Column.type).length := by
    rcases lists_tableOf columns with same | ⟨same, -⟩ <;> simp [same]
  have size : ∀ left ∈ columns.map Column.afterDocument, left.size = rows := by
    intro left member
    obtain ⟨column, inColumns, rfl⟩ := List.mem_map.1 member
    rw [← even column inColumns]
    exact List.length_map _
  exact columnsOf_eq_ok_iff.2 ⟨count, fits, columnsFrom_eq_ok bare (lists_tableOf columns) 0,
    fun column member other also => (size column member).trans (size other also).symm⟩

end DataContent

end Columnar
