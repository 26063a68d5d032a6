import Columnar.Proofs.Document.Columns

/-! Frames as documents and back. The schema keeps everything but the cells, and the cells are what
is left of them; nothing else is lost, as long as the reader of numbers returns the numbers that
were written and the document is not too deep to be read. -/
namespace Columnar

open Json (SpelledBy spelledBy_octets)

section Numbers

theorem Json.readsBack_ofNat {n : Nat} : ∀ number ∈ (Json.ofNat n).numbers, number.ReadsBack := by
  intro number member
  by_cases inRange : -0x8000000000000000 ≤ (n : Int) ∧ (n : Int) < 0x10000000000000000
  · rw [Json.ofNat_eq inRange] at member
    rcases List.mem_singleton.1 member with rfl
    exact JsonNumber.readsBack_whole inRange
  · rw [Json.ofNat, JsonNumber.ofInt?, dif_neg inRange] at member
    cases member

/-- The rows of special floats are numbers that are read as they were written. -/
theorem Entities.readsBack_toJson (entities : Entities) :
    ∀ number ∈ entities.toJson.numbers, number.ReadsBack := by
  intro number member
  rw [toJson, Json.numbers, Json.mem_memberNumbers] at member
  obtain ⟨⟨key, value⟩, listed, inValue⟩ := member
  have part : ∀ {name : String} {rows : List Nat}, (key, value) ∈
      (if rows.isEmpty then [] else [(name, Json.list (rows.map Json.ofNat))]) →
        ∃ rows : List Nat, value = .list (rows.map Json.ofNat) := by
    intro name rows listed
    split at listed
    · cases listed
    · cases List.mem_singleton.1 listed
      exact ⟨rows, rfl⟩
  have rows : ∃ rows : List Nat, value = .list (rows.map Json.ofNat) := by
    rcases List.mem_append.1 listed with listed | listed
    · exact (List.mem_append.1 listed).elim part part
    · exact part listed
  obtain ⟨rows, rfl⟩ := rows
  rw [Json.numbers, Json.mem_itemNumbers] at inValue
  obtain ⟨item, inRows, inItem⟩ := inValue
  obtain ⟨row, -, rfl⟩ := List.mem_map.1 inRows
  exact Json.readsBack_ofNat number inItem

end Numbers

namespace FieldContent

/-- The type that a schema describes is the type of the field. -/
theorem resolveType_content (position : Nat) (field : Field) :
    field.content.resolveType position = .ok field.type := by
  have parsed : FieldType.parse field.type.kind.name = .ok ⟨field.type.kind, false⟩ :=
    FieldType.parse_name ⟨field.type.kind, false⟩
  refine bind_eq_ok_iff.2 ⟨_, parsed, ?_⟩
  obtain ⟨kind, nullable⟩ := field.type
  cases nullable <;> rfl

/-- The fields that a schema describes, without cells. -/
theorem fieldsFrom_content (fields : List Field) (position : Nat) :
    fieldsFrom position (fields.map Field.content) =
      .ok (fields.map fun field => field.withColumn (Column.zeros field.type 0)) := by
  induction fields generalizing position with
  | nil => rfl
  | cons field rest ih =>
    have labels : field.content.labels.getD Labels.empty = field.labels := by
      unfold Field.content
      split
      next none => exact (Labels.eq_empty none).symm
      · rfl
    refine bind_eq_ok_iff.2 ⟨_, resolveType_content position field,
      bind_eq_ok_iff.2 ⟨_, ih (position + 1), ?_⟩⟩
    rw [labels]
    rfl

end FieldContent

namespace Field

/-- The field with what is left of its column after writing and reading it. -/
def afterDocument (field : Field) : Field := field.withColumn field.column.afterDocument

end Field

namespace Frame

/-- The frame that is left of a frame after writing and reading it. -/
def afterDocument (frame : Frame) : Frame :=
  { frame with fields := frame.fields.map Field.afterDocument, warnings := [] }

/-- The columns of the fields. -/
def columns (frame : Frame) : List Column := frame.fields.map Field.column

/-- The frame of what the sections of a frame say is what is left of the frame. -/
theorem ofContent_contents {frame : Frame} {values : List (List Json)}
    (bare : List.Forall₂ Column.Bare frame.columns values) {rows : Nat}
    (even : ∀ column ∈ frame.columns, column.size = rows) :
    ofContent ⟨some frame.schemaContent, some ⟨values, DataContent.tableOf frame.columns⟩⟩ =
      .ok frame.afterDocument := by
  let blank : Frame := { frame with
    fields := frame.fields.map fun field => field.withColumn (Column.zeros field.type 0)
    warnings := [] }
  have schema : ofSchema frame.schemaContent = .ok blank :=
    bind_eq_ok_iff.2 ⟨_, FieldContent.fieldsFrom_content frame.fields 0, rfl⟩
  have types : blank.types = frame.columns.map Column.type := by
    simp only [blank, Frame.types, columns, List.map_map]
    rfl
  have fields : List.zipWith Field.withColumn blank.fields
      (frame.columns.map Column.afterDocument) = frame.fields.map Field.afterDocument := by
    simp only [blank, columns, List.map_map]
    rw [List.zipWith_map, List.zipWith_self]
    rfl
  have filled : blank.withData ⟨values, DataContent.tableOf frame.columns⟩ =
      .ok frame.afterDocument := by
    refine bind_eq_ok_iff.2 ⟨_, by rw [types]; exact DataContent.columnsOf_eq_ok bare even, ?_⟩
    rw [fields]
    rfl
  refine bind_eq_ok_iff.2 ⟨blank, schema, ?_⟩
  dsimp only
  split
  next none =>
    -- A schema without fields takes those of the data section, which has none either.
    have noFields : frame.fields = [] := by simpa [blank] using none
    have noValues : values = [] := by
      rw [columns, noFields] at bare
      cases bare
      rfl
    let inferred := values.map fun column => Field.zeros "" (DataContent.inferType column) 0
    have same : { blank with fields := inferred } = blank := by
      simp [blank, inferred, noFields, noValues]
    rw [← same] at filled
    exact filled
  · exact filled

/-- A frame that a document can say everything about: its fields are of one length, and everything
in them and in the metadata can be expressed. -/
structure Expressible (frame : Frame) : Prop where
  even : ∃ rows < 0x10000000000000000, ∀ column ∈ frame.columns, column.size = rows
  columns : ∀ column ∈ frame.columns, column.Expressible
  configs : ∀ field ∈ frame.fields, ∀ config ∈ field.config, config.Expressible
  info : ∀ info ∈ frame.info, info.Expressible

/-- The reader of numbers returns the numbers that are written into a document of the frame. -/
structure ReadsBack (frame : Frame) : Prop where
  schema : ∀ number ∈ frame.schema.numbers, number.ReadsBack
  columns : ∀ column ∈ frame.columns, column.ReadsBack

variable {frame : Frame}

theorem checkLengths_of_even {rows : Nat}
    (even : ∀ column ∈ frame.columns, column.size = rows) : frame.checkLengths = .ok () := by
  unfold checkLengths
  split
  · rfl
  next some =>
    have counted : frame.rowCount = .ok rows := rowCount_eq_ok_iff.2
      ⟨by simpa using some, fun field member => even _ (List.mem_map_of_mem member)⟩
    rw [counted]
    rfl

theorem entityTable?_eq (frame : Frame) : frame.entityTable? =
    if (DataContent.tableOf frame.columns).isEmpty then none
    else some (.list ((DataContent.tableOf frame.columns).map Entities.entryJson)) := by
  have entries : (frame.fields.map fun field => Entities.ofCells field.column.cells) =
      frame.columns.map fun column => Entities.ofCells column.cells := by
    rw [columns, List.map_map]
    rfl
  have isEmpty : ∀ column : Column,
      column.entities?.isNone = (Entities.ofCells column.cells).isEmpty := by
    intro column
    rw [Column.entities?]
    split
    next isEmpty => exact isEmpty.symm
    next some => simpa using some
  have written : ∀ column : Column, Entities.entryJson column.entities? =
      let entry := Entities.ofCells column.cells
      if entry.isEmpty then .null else entry.toJson := by
    intro column
    rw [Column.entities?]
    split
    next isEmpty => exact (if_pos isEmpty).symm
    next some => exact (if_neg some).symm
  have none : frame.columns.all (fun column => column.entities?.isNone) =
      frame.columns.all fun column => (Entities.ofCells column.cells).isEmpty := by
    simp only [isEmpty]
  rw [entityTable?, entries, DataContent.tableOf, none, List.all_map]
  by_cases all : (frame.columns.all fun column => (Entities.ofCells column.cells).isEmpty) = true
  · rw [if_pos all]
    exact if_pos all
  · have some : ¬(frame.columns.map Column.entities?).isEmpty = true := by
      intro nothing
      rw [List.isEmpty_iff, List.map_eq_nil_iff] at nothing
      rw [nothing] at all
      exact all rfl
    rw [if_neg all, if_neg some, List.map_map, List.map_map]
    refine (if_neg all).trans (congrArg (Option.some ∘ Json.list) (List.map_congr_left ?_))
    intro column _
    exact (written column).symm

/-- All rows in the table of special floats can be written. -/
private theorem small_tableOf {columns : List Column} {rows : Nat}
    (narrow : rows < 0x10000000000000000) (even : ∀ column ∈ columns, column.size = rows) :
    ∀ entry ∈ DataContent.tableOf columns, ∀ entities ∈ entry, entities.Small := by
  intro entry member entities present
  rw [DataContent.tableOf] at member
  split at member
  · cases member
  · obtain ⟨column, inColumns, rfl⟩ := List.mem_map.1 member
    rw [Column.entities?] at present
    split at present
    · cases present
    · cases present
      refine Entities.small_ofCells (Nat.le_of_lt ?_)
      have size : column.cells.size = rows := even column inColumns
      rwa [size]

/-- The table of special floats is spelled by its own text. -/
private theorem table_spelled {table : List (Option Entities)}
    (small : ∀ entry ∈ table, ∀ entities ∈ entry, entities.Small) :
    (Json.list (table.map Entities.entryJson)).SpelledBy
      (Json.list (table.map Entities.entryJson)).octets := by
  refine spelledBy_octets _ (DraftReader.listOf_gives_self fun entry member =>
    Entities.entry_gives .value (small entry member)).distinct fun number member => ?_
  rw [Json.numbers, Json.mem_itemNumbers] at member
  obtain ⟨item, inTable, inItem⟩ := member
  obtain ⟨entry, -, rfl⟩ := List.mem_map.1 inTable
  cases entry with
  | none => cases inItem
  | some entities => exact entities.readsBack_toJson number inItem

/-- The data section is written, and stands for values of the bare cells and the table of special
floats. -/
theorem dataSection_spelled
    (even : ∃ rows < 0x10000000000000000, ∀ column ∈ frame.columns, column.size = rows)
    (expressible : ∀ column ∈ frame.columns, column.Expressible)
    (readsBack : ∀ column ∈ frame.columns, column.ReadsBack) :
    ∃ octets values, frame.dataSection = .ok octets ∧
      List.Forall₂ Column.Bare frame.columns values ∧
      (DataContent.toJson ⟨values, DataContent.tableOf frame.columns⟩).SpelledBy octets := by
  obtain ⟨rows, narrow, even⟩ := even
  obtain ⟨values, bare, spelled⟩ := Column.documents_spelled expressible readsBack
  have texts : (frame.fields.map fun field => field.column.document) =
      frame.columns.map Column.document := by
    rw [columns, List.map_map]
    rfl
  have small := small_tableOf narrow even
  refine ⟨_, values, bind_eq_ok_iff.2 ⟨(), checkLengths_of_even even, rfl⟩, bare, ?_⟩
  rw [entityTable?_eq, DataContent.toJson, texts]
  dsimp only
  split
  · exact Json.spelledBy_object (by simp [Json.optionalMember]) (.cons ⟨rfl, spelled⟩ .nil)
  · exact Json.spelledBy_object (by simp [Json.optionalMember])
      (.cons ⟨rfl, spelled⟩ (.cons ⟨rfl, table_spelled small⟩ .nil))

/-- A frame is written as a document that stands for its schema, for values of the bare cells and
the table of special floats. -/
theorem document_spelled
    (even : ∃ rows < 0x10000000000000000, ∀ column ∈ frame.columns, column.size = rows)
    (expressible : ∀ column ∈ frame.columns, column.Expressible) (readsBack : frame.ReadsBack) :
    ∃ octets values, frame.document .all = .ok octets ∧
      List.Forall₂ Column.Bare frame.columns values ∧
      (Json.object [("schema", frame.schema),
        ("data", DataContent.toJson ⟨values, DataContent.tableOf frame.columns⟩)]).SpelledBy
          octets := by
  obtain ⟨text, values, written, bare, dataSpelled⟩ :=
    dataSection_spelled even expressible readsBack.columns
  refine ⟨Json.objectOctets [("schema", frame.schema.octets), ("data", text)], values,
    bind_eq_ok_iff.2 ⟨[("data", text)], ?_, rfl⟩, bare, Json.spelledBy_object (by simp)
      (.cons ⟨rfl, spelledBy_octets _ frame.distinct_schema readsBack.schema⟩
        (.cons ⟨rfl, dataSpelled⟩ .nil))⟩
  rw [written]
  rfl

/-- A frame whose schema is read as that of another one with the same columns is read as what is
left of the other one, unless the document is too deep to be read. -/
theorem document_readAs {other : Frame}
    (even : ∃ rows < 0x10000000000000000, ∀ column ∈ frame.columns, column.size = rows)
    (expressible : ∀ column ∈ frame.columns, column.Expressible) (readsBack : frame.ReadsBack)
    (same : other.columns = frame.columns)
    (schema : (SchemaContent.read .value).Gives frame.schema other.schemaContent) :
    ∃ octets, frame.document .all = .ok octets ∧
      (Draft.Shallow octets → ofDocument octets = .ok other.afterDocument) := by
  obtain ⟨octets, values, written, bare, spelled⟩ := document_spelled even expressible readsBack
  obtain ⟨rows, narrow, even⟩ := even
  have ordered : ∀ column ∈ values, ∀ value ∈ column, value.Ordered := by
    intro column member
    obtain ⟨source, -, here⟩ := exists_left_of_forall₂ bare member
    exact here.1
  have data := DataContent.read_gives .value ⟨values, DataContent.tableOf frame.columns⟩
    ordered (small_tableOf narrow even)
  refine ⟨octets, written, fun shallow => ?_⟩
  obtain ⟨value, read, told⟩ := Json.read_of_spelledBy spelled shallow
  have content := DocumentContent.ofJson_of_told told schema data
  rw [← same] at bare even content
  refine bind_eq_ok_iff.2 ⟨value, by rw [read]; rfl, bind_eq_ok_iff.2 ⟨_, ?_,
    ofContent_contents bare even⟩⟩
  rw [content]
  rfl

end Frame

end Columnar
