import Columnar.Proofs.Document.Nesting

/-! Documents in their last form. A frame that has been read is written as a document that is read
as a frame with the same document again, whatever the first document looked like: one writing is
enough, and nothing changes from then on. -/
namespace Columnar

/-- The text of a value in order is read as the value. -/
theorem Json.read_octets {value : Json} (ordered : value.Ordered) (legible : value.Legible) :
    Json.read value.octets = .ok value := by
  obtain ⟨draft, scanned, told⟩ := scan_octets legible
  rw [Json.read, scanned]
  simp only [bind, Except.bind, toJson_of_toldBy ordered told]
  rfl

namespace Kind

/-- The reader of numbers returns every number in the text of an element: that of a float, and those
of the value that a document in a cell was made of. -/
def NumbersReadBack : (kind : Kind) → kind.Element → Prop
  | json, raw => ∀ value : Json, RawJson.ofValue value = raw →
      ∀ number ∈ value.numbers, number.ReadsBack
  | kind, x => kind.ReadsBack x

/-- What a document says of an element can be read: the milliseconds of a time stand for a time, and
a document has a value. -/
def Readable : (kind : Kind) → kind.Element → Prop
  | time, t => ∃ other, Instant.ofMillis? (Instant.millis t) = some other
  | json, raw => ∃ value, RawJson.value raw = .ok value
  | _, _ => True

/-- The element without leap seconds: the time that the milliseconds stand for. -/
def settled : (kind : Kind) → kind.Element → kind.Element
  | time, t => (Instant.ofMillis? (Instant.millis t)).getD t
  | _, x => x

variable {kind : Kind} {depth : Nat} {x : kind.Element}

theorem document_settled (x : kind.Element) : kind.document (kind.settled x) = kind.document x := by
  cases kind with
  | time =>
    have same : ((Instant.ofMillis? (Instant.millis x)).getD x).millis = Instant.millis x := by
      cases found : Instant.ofMillis? (Instant.millis x) with
      | none => rfl
      | some t => exact Instant.millis_of_ofMillis? found
    rw [settled, document, document, same]
  | _ => rfl

theorem special?_settled (x : kind.Element) : kind.special? (kind.settled x) = kind.special? x := by
  cases kind with
  | _ => rfl

theorem readsBack_settled (readsBack : kind.ReadsBack x) : kind.ReadsBack (kind.settled x) := by
  cases kind with
  | time | json => trivial
  | _ => exact readsBack

theorem expressible_settled (readable : kind.Readable x) : kind.Expressible (kind.settled x) := by
  cases kind with
  | time =>
    obtain ⟨t, found⟩ := readable
    rw [settled, found]
    exact Instant.noLeap_of_ofMillis? found
  | json => exact readable
  | _ => trivial

end Kind

namespace Cell

variable {type : FieldType} {depth : Nat}

/-- The cell without leap seconds. -/
def settled (cell : Cell type) : Cell type where
  content := cell.content.map type.kind.settled
  present required := by
    rw [Option.isSome_map]
    exact cell.present required

/-- Two cells of which a document says the same: they have one text, and are the same special float
if they are one. -/
def Alike (a b : Cell type) : Prop :=
  a.document = b.document ∧ a.content.bind type.kind.special? = b.content.bind type.kind.special?

/-- A change of elements of which a document says the same before and after. -/
theorem alike_of_content {a b : Cell type} {change : type.kind.Element → type.kind.Element}
    (changed : a.content = b.content.map change)
    (document : ∀ x, type.kind.document (change x) = type.kind.document x)
    (special : ∀ x, type.kind.special? (change x) = type.kind.special? x) : a.Alike b := by
  rw [Alike, Cell.document, Cell.document, changed]
  cases b.content with
  | none => exact ⟨rfl, rfl⟩
  | some x => exact ⟨document x, special x⟩

theorem alike_settled (cell : Cell type) : cell.settled.Alike cell :=
  alike_of_content rfl Kind.document_settled Kind.special?_settled

end Cell

/-- Cells that say the same list their special floats at the same rows. -/
theorem Entities.ofCells_map {type : FieldType} {change : Cell type → Cell type}
    {cells : List (Cell type)} (alike : ∀ cell ∈ cells, (change cell).Alike cell) :
    Entities.ofCells (⟨cells.map change⟩ : Cells type) = Entities.ofCells ⟨cells⟩ := by
  have rows : ∀ (special : SpecialFloat) (row : Nat),
      rowsOf special row (cells.map change) = rowsOf special row cells := by
    intro special
    induction cells with
    | nil => exact fun row => rfl
    | cons cell rest ih =>
      intro row
      rw [List.forall_mem_cons] at alike
      rw [List.map_cons, rowsOf, rowsOf, alike.1.2, ih alike.2]
  simp only [ofCells, rows]

namespace Column

/-- The column with a change made to each of its cells. -/
def mapCells (change : (type : FieldType) → Cell type → Cell type) (column : Column) : Column :=
  ⟨column.type, ⟨column.cells.toList.map (change column.type)⟩⟩

variable {change : (type : FieldType) → Cell type → Cell type} {column : Column}

theorem document_mapCells
    (alike : ∀ cell ∈ column.cells.toList, (change column.type cell).Alike cell) :
    (column.mapCells change).document = column.document := by
  rw [document, document, mapCells, List.map_map]
  exact congrArg Json.listOctets (List.map_congr_left fun cell member => (alike cell member).1)

/-- The reader of numbers returns every number in the texts of the cells. -/
def NumbersReadBack (column : Column) : Prop :=
  ∀ cell ∈ column.cells.toList, ∀ x ∈ cell.content, column.type.kind.NumbersReadBack x

/-- What a document says of the cells can be read. -/
def Readable (column : Column) : Prop :=
  ∀ cell ∈ column.cells.toList, ∀ x ∈ cell.content, column.type.kind.Readable x

theorem readsBack_settled (readsBack : column.ReadsBack) :
    (column.mapCells fun _ => Cell.settled).ReadsBack := by
  intro cell member x held
  obtain ⟨before, inside, rfl⟩ := List.mem_map.1 member
  obtain ⟨element, present, rfl⟩ := Option.map_eq_some_iff.1 held
  exact Kind.readsBack_settled (readsBack before inside element present)

theorem expressible_settled (readable : column.Readable) :
    (column.mapCells fun _ => Cell.settled).Expressible := by
  intro cell member x held
  obtain ⟨before, inside, rfl⟩ := List.mem_map.1 member
  obtain ⟨element, present, rfl⟩ := Option.map_eq_some_iff.1 held
  exact Kind.expressible_settled (readable before inside element present)

theorem size_mapCells : (column.mapCells change).size = column.size := List.length_map _

end Column

namespace Frame

/-- The frame with a change made to each of its cells. -/
def mapCells (change : (type : FieldType) → Cell type → Cell type) (frame : Frame) : Frame :=
  { frame with
    fields := frame.fields.map fun field => field.withColumn (field.column.mapCells change)
    warnings := [] }

variable {change : (type : FieldType) → Cell type → Cell type} {frame : Frame}

theorem columns_mapCells :
    (frame.mapCells change).columns = frame.columns.map (Column.mapCells change) := by
  rw [columns, columns, mapCells, List.map_map, List.map_map]
  rfl

theorem schema_mapCells : (frame.mapCells change).schema = frame.schema := by
  rw [schema, schema, mapCells, List.map_map]
  rfl

theorem isEmpty_mapCells : (frame.mapCells change).fields.isEmpty = frame.fields.isEmpty :=
  List.isEmpty_map

theorem rowCount_mapCells : (frame.mapCells change).rowCount = frame.rowCount := by
  have size : ∀ field : Field,
      (field.withColumn (field.column.mapCells change)).size = field.size :=
    fun field => Column.size_mapCells
  unfold rowCount mapCells
  cases frame.fields with
  | nil => rfl
  | cons first rest => simp only [List.map_cons, List.map_map, Function.comp_def, size]

theorem checkLengths_mapCells : (frame.mapCells change).checkLengths = frame.checkLengths := by
  rw [checkLengths, checkLengths, isEmpty_mapCells, rowCount_mapCells]

/-- The document does not change with the cells, as long as it says the same of each of them. -/
theorem document_mapCells (alike : ∀ column ∈ frame.columns, ∀ cell ∈ column.cells.toList,
    (change column.type cell).Alike cell) (parts : FrameParts) :
    (frame.mapCells change).document parts = frame.document parts := by
  have each : ∀ field ∈ frame.fields, ∀ cell ∈ field.column.cells.toList,
      (change field.column.type cell).Alike cell :=
    fun field member => alike field.column (List.mem_map_of_mem member)
  have texts : ((frame.mapCells change).fields.map fun field => field.column.document) =
      frame.fields.map fun field => field.column.document := by
    rw [mapCells, List.map_map]
    exact List.map_congr_left fun field member => Column.document_mapCells (each field member)
  have entities : ((frame.mapCells change).fields.map fun field =>
      Entities.ofCells field.column.cells) =
        frame.fields.map fun field => Entities.ofCells field.column.cells := by
    rw [mapCells, List.map_map]
    exact List.map_congr_left fun field member => Entities.ofCells_map (each field member)
  have table : (frame.mapCells change).entityTable? = frame.entityTable? := by
    rw [entityTable?, entityTable?, entities]
  have data : (frame.mapCells change).dataSection = frame.dataSection := by
    rw [dataSection, dataSection, checkLengths_mapCells, texts, table]
  rw [document, document, schema_mapCells, data]

/-- The reader of numbers returns the numbers that are written into a document of the frame. -/
structure NumbersReadBack (frame : Frame) : Prop where
  schema : ∀ number ∈ frame.schema.numbers, number.ReadsBack
  columns : ∀ column ∈ frame.columns, column.NumbersReadBack

/-- The frame without leap seconds. A leap second is read as the time of its milliseconds, so this
is the frame to write in place of the other one. -/
def settled (frame : Frame) : Frame := frame.mapCells fun _ => Cell.settled

theorem document_settled (parts : FrameParts) :
    frame.settled.document parts = frame.document parts :=
  document_mapCells (fun _ _ cell _ => cell.alike_settled) parts

private theorem columns_settled {column : Column} (member : column ∈ frame.settled.columns) :
    ∃ source ∈ frame.columns, column = source.mapCells fun _ => Cell.settled := by
  rw [settled, columns_mapCells] at member
  obtain ⟨source, listed, rfl⟩ := List.mem_map.1 member
  exact ⟨source, listed, rfl⟩

theorem readsBack_settled (readsBack : frame.ReadsBack) : frame.settled.ReadsBack := by
  refine ⟨by rw [settled, schema_mapCells]; exact readsBack.schema, fun column member => ?_⟩
  obtain ⟨source, listed, rfl⟩ := columns_settled member
  exact Column.readsBack_settled (readsBack.columns source listed)

theorem expressible_settled (readable : ∀ column ∈ frame.columns, column.Readable) :
    ∀ column ∈ frame.settled.columns, column.Expressible := by
  intro column member
  obtain ⟨source, listed, rfl⟩ := columns_settled member
  exact Column.expressible_settled (readable source listed)

theorem even_settled
    (even : ∃ rows < 0x10000000000000000, ∀ column ∈ frame.columns, column.size = rows) :
    ∃ rows < 0x10000000000000000, ∀ column ∈ frame.settled.columns, column.size = rows := by
  obtain ⟨rows, narrow, even⟩ := even
  refine ⟨rows, narrow, fun column member => ?_⟩
  obtain ⟨source, listed, rfl⟩ := columns_settled member
  rw [Column.size_mapCells, even source listed]

/-- Every part of a frame whose columns are of one length can be written. -/
theorem exists_document {rows : Nat} (even : ∀ column ∈ frame.columns, column.size = rows)
    (parts : FrameParts) : ∃ text, frame.document parts = .ok text := by
  have data : ∃ octets, frame.dataSection = .ok octets :=
    ⟨_, bind_eq_ok_iff.2 ⟨(), checkLengths_of_even even, rfl⟩⟩
  obtain ⟨octets, data⟩ := data
  rw [document, data]
  cases parts.hasData <;> exact ⟨_, rfl⟩

end Frame

end Columnar
