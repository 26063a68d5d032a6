import Columnar.Proofs.Document.Accepted
import Columnar.Proofs.Document.RoundTrip
import Columnar.Proofs.Time.Rfc3339

/-! Frames that have been read. The columns are of one length, every time has milliseconds that
stand for a time, and every document in a cell is the text of a value. -/
namespace Columnar

namespace Kind

/-- What can be in the cell of a column that has been read. -/
def Decoded (depth : Nat) : (kind : Kind) → kind.Element → Prop
  | time, t => ∃ s, Instant.ofMillis? (Instant.millis t) = some s
  | json, raw => ∃ value : Json, value.Ordered ∧ value.depth ≤ depth ∧ raw = RawJson.ofValue value
  | _, _ => True

variable {depth : Nat}

theorem decoded_instant {value : Json} {t : Instant} (read : value.instant? = some t) :
    ∃ s, Instant.ofMillis? t.millis = some s := by
  unfold Json.instant? at read
  split at read
  · split at read
    next millis =>
      exact ⟨_, Instant.ofMillis?_millis (Instant.noLeap_of_ofMillis? read)⟩
    · exact ⟨_, Instant.ofMillis?_millis (Instant.noLeap_of_ofNanos? read)⟩
  · split at read
    next found =>
      cases read
      exact Instant.exists_ofMillis?_millis (Rfc3339.second_lt_of_read found)
    · cases read
  · cases read

theorem decoded_ofJson? {kind : Kind} {value : Json} {x : kind.Element}
    (read : kind.ofJson? value = some x) (ordered : value.Ordered) (deep : value.depth ≤ depth) :
    kind.Decoded depth x := by
  cases kind with
  | time =>
    have read : value.instant? = some x := read
    exact decoded_instant read
  | json =>
    cases read
    exact ⟨value, ordered, deep, rfl⟩
  | _ => trivial

theorem decoded_special {kind : Kind} {special : SpecialFloat} {x : kind.Element}
    (found : special.element? kind = some x) : kind.Decoded depth x := by
  cases kind with
  | time | json => cases special <;> cases found
  | _ => trivial

theorem decoded_contentOf? {type : FieldType} {value : Json} {content : Option type.kind.Element}
    (read : type.contentOf? value = some content) (ordered : value.Ordered)
    (deep : value.depth ≤ depth) : ∀ x ∈ content, type.kind.Decoded depth x := by
  rintro x ⟨⟩
  cases value with
  | null =>
    rw [FieldType.contentOf?] at read
    split at read
    · exact decoded_ofJson? (Option.some.inj read) ordered deep
    · cases read
  | _ =>
    obtain ⟨found, here, same⟩ := Option.map_eq_some_iff.1 read
    cases same
    exact decoded_ofJson? here ordered deep

end Kind

namespace Column

/-- What has been read is in all cells of the column. -/
def Decoded (depth : Nat) (column : Column) : Prop :=
  ∀ cell ∈ column.cells.toList, ∀ x ∈ cell.content, column.type.kind.Decoded depth x

end Column

namespace DataContent

variable {type : FieldType} {field : Nat} {depth : Nat}

/-- Contents that are read belong to the values one by one. -/
theorem contents_eq_ok_iff {row : Nat} {values : List Json}
    {contents : List (Option type.kind.Element)} :
    DataContent.contents field type row values = .ok contents ↔
      List.Forall₂ (fun value content => type.contentOf? value = some content) values contents := by
  induction values generalizing row contents with
  | nil => simp [DataContent.contents, eq_comm]
  | cons value rest ih =>
    rw [DataContent.contents, List.forall₂_cons_left_iff]
    cases here : type.contentOf? value with
    | none => simp
    | some content =>
      simp only [map_eq_ok_iff, ih]
      constructor
      · rintro ⟨others, later, rfl⟩
        exact ⟨content, others, rfl, later, rfl⟩
      · rintro ⟨_, others, ⟨⟩, later, rfl⟩
        exact ⟨others, later, rfl⟩

/-- Putting a special float into cells changes neither their number nor what is kept. -/
theorem place_keeps {keep : Option type.kind.Element → Prop} {special : SpecialFloat}
    (here : keep (special.element? type.kind)) {rows : List Nat}
    {cells result : List (Option type.kind.Element)} (all : ∀ content ∈ cells, keep content)
    (ran : place field special cells rows = .ok result) :
    result.length = cells.length ∧ ∀ content ∈ result, keep content := by
  induction rows generalizing cells with
  | nil =>
    cases ran
    exact ⟨rfl, all⟩
  | cons row rest ih =>
    rw [place, List.foldlM_cons] at ran
    obtain ⟨next, set, ran⟩ := bind_eq_ok_iff.1 ran
    split at set
    · cases set
      have kept : ∀ content ∈ cells.set row (special.element? type.kind), keep content := by
        intro content member
        rcases List.mem_or_eq_of_mem_set member with before | rfl
        · exact all content before
        · exact here
      obtain ⟨length, later⟩ := ih kept ran
      exact ⟨by rw [length, List.length_set], later⟩
    · cases set

theorem placeEntities_keeps {keep : Option type.kind.Element → Prop}
    (special : ∀ special : SpecialFloat, keep (special.element? type.kind)) {entities : Entities}
    {cells result : List (Option type.kind.Element)} (all : ∀ content ∈ cells, keep content)
    (ran : placeEntities field cells entities = .ok result) :
    result.length = cells.length ∧ ∀ content ∈ result, keep content := by
  unfold placeEntities at ran
  split at ran
  · cases ran
  · obtain ⟨first, nan, ran⟩ := bind_eq_ok_iff.1 ran
    obtain ⟨second, infinity, negInfinity⟩ := bind_eq_ok_iff.1 ran
    obtain ⟨firstLength, firstKept⟩ := place_keeps (special .nan) all nan
    obtain ⟨secondLength, secondKept⟩ := place_keeps (special .infinity) firstKept infinity
    obtain ⟨length, kept⟩ := place_keeps (special .negInfinity) secondKept negInfinity
    exact ⟨by rw [length, secondLength, firstLength], kept⟩

theorem content_of_requireCell {content : Option type.kind.Element} {cell : Cell type}
    (made : requireCell field content = .ok cell) : cell.content = content := by
  unfold requireCell at made
  split at made
  · cases made
    rfl
  · split at made
    · cases made
      rfl
    · cases made

/-- A column that is read has the type that was asked for, a cell for each value, and in them what
was read. -/
theorem column_decoded {values : List Json} {entities : Option Entities} {column : Column}
    (ordered : ∀ value ∈ values, value.Ordered) (deep : ∀ value ∈ values, value.depth ≤ depth)
    (ran : DataContent.column field type values entities = .ok column) :
    column.type = type ∧ column.size = values.length ∧ column.Decoded depth := by
  let keep (content : Option type.kind.Element) : Prop := ∀ x ∈ content, type.kind.Decoded depth x
  obtain ⟨contents, read, ran⟩ := bind_eq_ok_iff.1 ran
  rw [contents_eq_ok_iff] at read
  have kept : ∀ content ∈ contents, keep content := by
    intro content member
    obtain ⟨value, listed, here⟩ := exists_left_of_forall₂ read member
    exact Kind.decoded_contentOf? here (ordered value listed) (deep value listed)
  have parts : ∃ (placed : List (Option type.kind.Element)) (cells : List (Cell type)),
      placed.mapM (requireCell field) = .ok cells ∧ column = ⟨type, ⟨cells⟩⟩ ∧
        placed.length = contents.length ∧ ∀ content ∈ placed, keep content := by
    cases entities with
    | none =>
      obtain ⟨_, ⟨⟩, ran⟩ := bind_eq_ok_iff.1 ran
      obtain ⟨cells, required, ran⟩ := bind_eq_ok_iff.1 ran
      cases ran
      exact ⟨contents, cells, required, rfl, rfl, kept⟩
    | some entities =>
      obtain ⟨placed, special, ran⟩ := bind_eq_ok_iff.1 ran
      obtain ⟨cells, required, ran⟩ := bind_eq_ok_iff.1 ran
      cases ran
      exact ⟨placed, cells, required, rfl,
        placeEntities_keeps (fun special x found => Kind.decoded_special found) kept special⟩
  obtain ⟨placed, cells, required, rfl, length, placedKept⟩ := parts
  rw [mapM_eq_ok_iff] at required
  refine ⟨rfl, ?_, fun cell member x held => ?_⟩
  · exact required.length_eq.symm.trans (length.trans read.length_eq.symm)
  · obtain ⟨content, listed, made⟩ := exists_left_of_forall₂ required member
    rw [content_of_requireCell made] at held
    exact placedKept content listed x held

/-- The columns that are read belong to the types and the values one by one. -/
theorem columnsFrom_decoded {position : Nat} {types : List FieldType}
    {values : List (List Json)} {entities : List (Option Entities)} {columns : List Column}
    (same : values.length = types.length)
    (cells : ∀ column ∈ values, ∀ value ∈ column, value.Ordered ∧ value.depth ≤ depth)
    (ran : columnsFrom position types values entities = .ok columns) :
    columns.map Column.type = types ∧ columns.map Column.size = values.map List.length ∧
      ∀ column ∈ columns, column.Decoded depth := by
  induction types generalizing position values entities columns with
  | nil =>
    cases List.eq_nil_of_length_eq_zero same
    cases ran
    exact ⟨rfl, rfl, List.forall_mem_nil _⟩
  | cons type types ih =>
    cases values with
    | nil => cases same
    | cons first rest =>
      obtain ⟨column, here, ran⟩ := bind_eq_ok_iff.1 ran
      obtain ⟨others, later, ran⟩ := bind_eq_ok_iff.1 ran
      cases ran
      rw [List.forall_mem_cons] at cells
      obtain ⟨typed, size, decoded⟩ := column_decoded (fun value member => (cells.1 value member).1)
        (fun value member => (cells.1 value member).2) here
      obtain ⟨types, sizes, all⟩ := ih (Nat.succ.inj same) cells.2 later
      refine ⟨?_, ?_, List.forall_mem_cons.2 ⟨decoded, all⟩⟩
      · rw [List.map_cons, typed, types]
      · rw [List.map_cons, List.map_cons, size, sizes]

/-- The columns of an accepted data section have the wanted types and one length, that of the lists
of values. -/
theorem columnsOf_decoded {width : Nat} {data : DataContent} {types : List FieldType}
    {columns : List Column} (accepted : data.Accepted width depth)
    (ran : data.columnsOf types = .ok columns) :
    columns.map Column.type = types ∧ (∀ column ∈ columns, column.Decoded depth) ∧
      columns.map Column.size = data.columns.map List.length ∧
      ∃ rows ≤ width, ∀ column ∈ columns, column.size = rows := by
  obtain ⟨same, -, read, even⟩ := columnsOf_eq_ok_iff.1 ran
  obtain ⟨typed, lengths, all⟩ := columnsFrom_decoded same
    (fun column member value listed => ⟨(accepted.cells column member value listed).1,
      (accepted.cells column member value listed).2.depth⟩) read
  refine ⟨typed, all, lengths, ?_⟩
  cases columns with
  | nil => exact ⟨0, Nat.zero_le _, List.forall_mem_nil _⟩
  | cons first rest =>
    have some : first.size ∈ (first :: rest).map Column.size := by simp
    rw [lengths] at some
    obtain ⟨values, member, same⟩ := List.mem_map.1 some
    exact ⟨first.size, same ▸ accepted.short values member,
      fun column member => even column member first (by simp)⟩

end DataContent

namespace Frame

/-- A frame that has been read: its columns are of one length and hold what was read, and its
metadata and configurations can be written. -/
structure Decoded (width depth : Nat) (frame : Frame) : Prop where
  even : ∃ rows ≤ width, ∀ column ∈ frame.columns, column.size = rows
  columns : ∀ column ∈ frame.columns, column.Decoded (depth + 1)
  configs : ∀ field ∈ frame.fields, ∀ config ∈ field.config, config.Accepted depth
  info : ∀ info ∈ frame.info, info.Accepted (depth + 2)

variable {width depth : Nat} {frame : Frame}

theorem fieldsFrom_decoded {contents : List FieldContent} {position : Nat} {fields : List Field}
    (accepted : ∀ content ∈ contents, content.Accepted depth)
    (ran : FieldContent.fieldsFrom position contents = .ok fields) :
    ∀ field ∈ fields, field.column.cells.toList = [] ∧
      ∀ config ∈ field.config, config.Accepted depth := by
  induction contents generalizing position fields with
  | nil =>
    cases ran
    exact List.forall_mem_nil _
  | cons content rest ih =>
    rw [List.forall_mem_cons] at accepted
    obtain ⟨type, resolved, ran⟩ := bind_eq_ok_iff.1 ran
    obtain ⟨others, later, ran⟩ := bind_eq_ok_iff.1 ran
    cases ran
    exact List.forall_mem_cons.2 ⟨⟨rfl, accepted.1.config⟩, ih accepted.2 later⟩

/-- A frame of fields without cells. -/
theorem decoded_bare (bare : ∀ field ∈ frame.fields, field.column.cells.toList = [])
    (configs : ∀ field ∈ frame.fields, ∀ config ∈ field.config, config.Accepted depth)
    (info : ∀ info ∈ frame.info, info.Accepted (depth + 2)) : frame.Decoded width depth where
  even := by
    refine ⟨0, Nat.zero_le _, fun column member => ?_⟩
    obtain ⟨field, listed, rfl⟩ := List.mem_map.1 member
    exact congrArg List.length (bare field listed)
  columns column member cell inside := by
    obtain ⟨field, listed, rfl⟩ := List.mem_map.1 member
    rw [bare field listed] at inside
    cases inside
  configs := configs
  info := info

theorem ofSchema_decoded {schema : SchemaContent} (accepted : schema.Accepted depth)
    (ran : ofSchema schema = .ok frame) : frame.Decoded width depth := by
  obtain ⟨fields, read, ran⟩ := bind_eq_ok_iff.1 ran
  cases ran
  have all := fieldsFrom_decoded accepted.fields read
  exact decoded_bare (fun field member => (all field member).1)
    (fun field member => (all field member).2) accepted.info

/-- A field with another column has that column and its own configuration. -/
private theorem mem_withColumns {fields : List Field} {columns : List Column} {field : Field}
    (member : field ∈ List.zipWith Field.withColumn fields columns) :
    field.column ∈ columns ∧ ∃ source ∈ fields, field.config = source.config := by
  induction fields generalizing columns with
  | nil => cases member
  | cons first rest ih =>
    cases columns with
    | nil => cases member
    | cons column others =>
      rcases List.mem_cons.1 member with rfl | member
      · exact ⟨by simp [Field.withColumn], first, by simp, rfl⟩
      · obtain ⟨inColumns, source, listed, same⟩ := ih member
        exact ⟨by simp [inColumns], source, by simp [listed], same⟩

theorem withData_decoded {data : DataContent} (decoded : frame.Decoded width depth)
    (accepted : data.Accepted width (depth + 1)) {filled : Frame}
    (ran : frame.withData data = .ok filled) : filled.Decoded width depth := by
  obtain ⟨columns, read, ran⟩ := bind_eq_ok_iff.1 ran
  cases ran
  obtain ⟨-, all, -, rows, narrow, even⟩ := DataContent.columnsOf_decoded accepted read
  have listed : ∀ column ∈ Frame.columns { frame with
      fields := List.zipWith Field.withColumn frame.fields columns }, column ∈ columns := by
    intro column member
    obtain ⟨field, inFields, rfl⟩ := List.mem_map.1 member
    exact (mem_withColumns inFields).1
  exact {
    even := ⟨rows, narrow, fun column member => even column (listed column member)⟩
    columns := fun column member => all column (listed column member)
    configs := by
      intro field member
      obtain ⟨-, source, inFields, same⟩ := mem_withColumns member
      rw [same]
      exact decoded.configs source inFields
    info := decoded.info }

/-- The frame of an accepted document. -/
theorem ofContent_decoded {content : DocumentContent} (accepted : content.Accepted width depth)
    (ran : ofContent content = .ok frame) : frame.Decoded width depth := by
  have filled : ∀ (start : Frame) (data : DataContent), start.Decoded width depth →
      data.Accepted width (depth + 1) →
      (let inferred := data.columns.map fun values =>
          Field.zeros "" (DataContent.inferType values) 0
        let bare := if start.fields.isEmpty then { start with fields := inferred } else start
        bare.withData data) = .ok frame → frame.Decoded width depth := by
    intro start data decoded accepted ran
    split at ran
    · refine withData_decoded ?_ accepted ran
      refine decoded_bare ?_ ?_ decoded.info
      · intro field member
        obtain ⟨values, -, rfl⟩ := List.mem_map.1 member
        rfl
      · intro field member
        obtain ⟨values, -, rfl⟩ := List.mem_map.1 member
        rintro _ ⟨⟩
    · exact withData_decoded decoded accepted ran
  obtain ⟨schema, data⟩ := content
  cases schema with
  | none =>
    have nothing : Frame.Decoded width depth {} :=
      decoded_bare (List.forall_mem_nil _) (List.forall_mem_nil _) (by rintro _ ⟨⟩)
    cases data with
    | none =>
      cases ran
      exact nothing
    | some data => exact filled {} data nothing (accepted.data data rfl) ran
  | some schema =>
    obtain ⟨start, read, ran⟩ := bind_eq_ok_iff.1 ran
    have decoded : start.Decoded width depth :=
      ofSchema_decoded (accepted.schema schema rfl) read
    cases data with
    | none =>
      cases ran
      exact decoded
    | some data => exact filled start data decoded (accepted.data data rfl) ran

/-- The frame of a text. The sections stand in the document, the configurations in the fields of
the schema and the cells in the columns of the data. -/
theorem ofDocument_decoded {octets : Octets} (ran : ofDocument octets = .ok frame) :
    frame.Decoded octets.length (Draft.depthLimit - 5) := by
  obtain ⟨value, read, ran⟩ := bind_eq_ok_iff.1 ran
  obtain ⟨content, found, ran⟩ := bind_eq_ok_iff.1 ran
  obtain ⟨ordered, within⟩ := Json.bounds_of_read (mapError_eq_ok_iff.1 read)
  exact ofContent_decoded
    (DocumentContent.ofJson_accepts ordered within (mapError_eq_ok_iff.1 found)) ran

end Frame

end Columnar
