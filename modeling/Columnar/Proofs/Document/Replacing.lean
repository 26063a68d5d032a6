import Columnar.Document.Replacing
import Columnar.Proofs.Document.Decoded
import Columnar.Proofs.Frame.InPlace

/-! Cells that are replaced where they stand. Every column is read before the first field is changed,
so that a document of which some part does not fit leaves the frame as it was, and the columns that
are put into the fields are those of the document, all of one length. -/
namespace Columnar

namespace Json

/-- The member of an object with a key. -/
def member? (key : String) : Json → Option Json
  | object members => members.lookup key
  | _ => none

/-- The items of a list, if there is one. -/
def itemsOf : Option Json → List Json
  | some (list items) => items
  | _ => []

/-- The columns in the data section of a document, under whichever of their two names they stand. -/
def dataColumns (document : Json) : List Json :=
  itemsOf ((document.member? "data").bind fun data =>
    (data.member? "fields").or (data.member? "values"))

end Json

section Sections

open DraftReader

variable {members : List (String × Json)}

/-- The columns that are read of a value are its items, and their values the items of these. -/
theorem DataContent.eq_of_columns {value : Json} {columns : List (List Json)}
    (ordered : value.Ordered) (ran : listOf (listOf json) value.toDraft = .ok columns) :
    value = .list (columns.map Json.list) := by
  refine eq_of_listOf (fun item ordered values ran => ?_) ordered ran
  have same : item = .list (values.map id) :=
    eq_of_listOf (fun _ ordered _ ran => eq_of_json ordered ran) ordered ran
  rwa [List.map_id] at same

private theorem columns_of_listed {data : DataContent} {name : String} {value : Json}
    (known : name = "fields" ∨ name = "values") (listed : (name, value) ∈ members)
    (ordered : value.Ordered)
    (read : DraftReader.ofValue DataContent.read (.object members) = .ok data) :
    value = .list (data.columns.map Json.list) := by
  unfold DraftReader.ofValue DataContent.read at read
  refine holds_of_listed (fun data => value = .list (data.columns.map Json.list)) listed
    (by rcases known with rfl | rfl <;> rfl) ?_ ?_ read
  · intro record result set
    obtain ⟨columns, ran, rfl⟩ := map_eq_ok_iff.1 set
    exact DataContent.eq_of_columns ordered ran
  · simp only [List.forall_mem_cons]
    refine ⟨fun other => absurd rfl other, fun _ draft record result set holds => ?_,
      List.forall_mem_nil _⟩
    obtain ⟨entities, -, rfl⟩ := map_eq_ok_iff.1 set
    exact holds

private theorem columns_of_absent {data : DataContent}
    (fields : members.lookup "fields" = none) (values : members.lookup "values" = none)
    (read : DraftReader.ofValue DataContent.read (.object members) = .ok data) :
    data.columns = [] := by
  unfold DraftReader.ofValue DataContent.read at read
  refine holds_of_members (fun data => data.columns = []) rfl ?_ read
  rintro ⟨key, value⟩ listed
  simp only [List.forall_mem_cons]
  refine ⟨fun named => ?_, fun _ record holds result set => ?_, List.forall_mem_nil _⟩
  · rw [List.lookup_eq_none_iff] at fields values
    have noFields := fields _ listed
    have noValues := values _ listed
    have either : key = "fields" ∨ key = "values" := by simpa [defaulted] using named
    rcases either with rfl | rfl
    · simp at noFields
    · simp at noValues
  · obtain ⟨entities, -, rfl⟩ := map_eq_ok_iff.1 set
    exact holds

/-- The columns that are read of a data section are those that stand in it. -/
theorem DataContent.columns_of_read {data : DataContent} (ordered : (Json.object members).Ordered)
    (read : DraftReader.ofValue DataContent.read (.object members) = .ok data) :
    Json.itemsOf ((members.lookup "fields").or (members.lookup "values")) =
      data.columns.map Json.list := by
  have inside := Json.membersOrdered_iff.1 ordered.2
  cases fields : members.lookup "fields" with
  | some value =>
    have listed := mem_of_lookup_eq_some fields
    rw [Option.some_or, columns_of_listed (.inl rfl) listed (inside _ listed) read]
    rfl
  | none =>
    cases values : members.lookup "values" with
    | some value =>
      have listed := mem_of_lookup_eq_some values
      rw [Option.none_or, columns_of_listed (.inr rfl) listed (inside _ listed) read]
      rfl
    | none =>
      rw [columns_of_absent fields values read]
      rfl

private theorem data_of_listed {content : DocumentContent} {value : Json}
    (listed : ("data", value) ∈ members)
    (read : DraftReader.ofValue DocumentContent.read (.object members) = .ok content) :
    nullable (DataContent.read .value) value.toDraft = .ok content.data := by
  unfold DraftReader.ofValue DocumentContent.read at read
  refine holds_of_listed
    (fun content => nullable (DataContent.read .value) value.toDraft = .ok content.data)
    listed rfl ?_ ?_ read
  · intro record result set
    obtain ⟨data, ran, rfl⟩ := map_eq_ok_iff.1 set
    exact ran
  · simp only [List.forall_mem_cons]
    refine ⟨fun _ draft record result set holds => ?_, fun other => absurd rfl other,
      List.forall_mem_nil _⟩
    obtain ⟨schema, -, rfl⟩ := map_eq_ok_iff.1 set
    exact holds

private theorem data_of_absent {content : DocumentContent} (absent : members.lookup "data" = none)
    (read : DraftReader.ofValue DocumentContent.read (.object members) = .ok content) :
    content.data = none := by
  unfold DraftReader.ofValue DocumentContent.read at read
  refine holds_of_members (fun content => content.data = none) rfl ?_ read
  rintro ⟨key, value⟩ listed
  simp only [List.forall_mem_cons]
  refine ⟨fun _ record holds result set => ?_, fun named => ?_, List.forall_mem_nil _⟩
  · obtain ⟨schema, -, rfl⟩ := map_eq_ok_iff.1 set
    exact holds
  · rw [List.lookup_eq_none_iff] at absent
    have differs := absent _ listed
    have same : key = "data" := by simpa [DraftReader.optional] using named
    simp [same] at differs

/-- The columns that are read of a document with a data section are those that stand in it. -/
theorem DocumentContent.dataColumns_of_ofJson {document : Json} {content : DocumentContent}
    {data : DataContent} (ordered : document.Ordered) (read : ofJson document = .ok content)
    (present : content.data = some data) :
    document.dataColumns = data.columns.map Json.list := by
  cases document with
  | object members =>
    obtain ⟨-, -, read⟩ := bind_eq_ok_iff.1 read
    obtain ⟨_, checked, read⟩ := bind_eq_ok_iff.1 read
    rw [mapError_eq_ok_iff] at read
    have member : (Json.object members).member? "data" = members.lookup "data" := rfl
    unfold checkSection at checked
    split at checked
    next absent => cases present.symm.trans (data_of_absent absent read)
    next null =>
      have nothing := data_of_listed (mem_of_lookup_eq_some null) read
      rw [present] at nothing
      cases nothing
    next found =>
      have listed := mem_of_lookup_eq_some found
      obtain ⟨same, ran, filled⟩ := map_eq_ok_iff.1 (data_of_listed listed read)
      cases filled.trans present
      have inside := Json.membersOrdered_iff.1 ordered.2 _ listed
      rw [Json.dataColumns, member, found]
      exact DataContent.columns_of_read inside ran
    next => cases checked
  | _ => cases read

end Sections

namespace Frame

variable {frame after : Frame} {octets : Octets} {document : Json}

/-- The columns of a document that has been read have the wanted types and the lengths of the lists
in the document, which are all the same. -/
theorem columnsOf_read {content : DocumentContent} {data : DataContent} {types : List FieldType}
    {columns : List Column} (read : Json.read octets = .ok document)
    (said : DocumentContent.ofJson document = .ok content) (present : content.data = some data)
    (ran : data.columnsOf types = .ok columns) :
    columns.map Column.type = types ∧
      columns.map Column.size = data.columns.map List.length ∧
      ∃ rows, ∀ column ∈ columns, column.size = rows := by
  obtain ⟨ordered, within⟩ := Json.bounds_of_read read
  have accepted : content.Accepted octets.length (Draft.depthLimit - 5) :=
    DocumentContent.ofJson_accepts ordered within said
  obtain ⟨typed, -, sizes, rows, -, even⟩ :=
    DataContent.columnsOf_decoded (accepted.data data present) ran
  exact ⟨typed, sizes, rows, even⟩

/-- Replacing cells where they stand makes the frame that has the new cells, or leaves the frame as it
was. -/
theorem replaceInPlace_settles (frame : Frame) (octets : Octets) :
    (replaceInPlace octets).Settles frame (frame.replaceData octets) := by
  refine InPlace.settles_check_bind fun document parsed => ?_
  refine InPlace.settles_check_bind fun content said => ?_
  cases present : content.data with
  | none => exact InPlace.settles_throw _
  | some data =>
    refine InPlace.settles_state_bind (InPlace.settles_check_bind fun columns ran => ?_)
    have typed := (columnsOf_read (mapError_eq_ok_iff.1 parsed) (mapError_eq_ok_iff.1 said)
      present ran).1
    have same : columns.length = frame.fields.length := by
      simpa [types] using congrArg List.length typed
    exact changeEach_settles same

section Layout

variable {fields : List Field} {columns : List Column}

/-- Fields with other columns of the same types have these columns, and nothing else changes. -/
theorem layouts_withColumns (typed : columns.map Column.type = fields.map Field.type) :
    (List.zipWith Field.withColumn fields columns).map Field.layout = fields.map Field.layout ∧
      (List.zipWith Field.withColumn fields columns).map Field.column = columns := by
  induction fields generalizing columns with
  | nil =>
    cases List.map_eq_nil_iff.1 typed
    exact ⟨rfl, rfl⟩
  | cons field rest ih =>
    cases columns with
    | nil => cases typed
    | cons column others =>
      obtain ⟨same, later⟩ := List.cons.inj typed
      obtain ⟨layouts, columns⟩ := ih later
      have here : (field.withColumn column).layout = field.layout := by
        simp only [Field.layout, Field.type, Field.withColumn, same]
      exact ⟨congrArg₂ List.cons here layouts, congrArg (column :: ·) columns⟩

end Layout

/-- A frame has the rows of a document: as many fields as the data section has columns, each of them
as long as each column. -/
structure HoldsRows (frame : Frame) (document : Json) (rows : Nat) : Prop where
  width : document.dataColumns.length = frame.fields.length
  columns : ∀ column ∈ document.dataColumns, ∃ cells, column = .list cells ∧ cells.length = rows
  fields : ∀ field ∈ frame.fields, field.size = rows

/-- Cells that are replaced are those of a document with a data section, and nothing else is. -/
theorem replaceData_spec (replaced : frame.replaceData octets = .ok after) :
    frame.SameLayout after ∧
      ∃ document rows, Json.read octets = .ok document ∧ after.HoldsRows document rows := by
  obtain ⟨document, parsed, replaced⟩ := bind_eq_ok_iff.1 replaced
  obtain ⟨content, said, replaced⟩ := bind_eq_ok_iff.1 replaced
  rw [mapError_eq_ok_iff] at parsed said
  split at replaced
  · cases replaced
  next data present =>
    obtain ⟨columns, ran, made⟩ := bind_eq_ok_iff.1 replaced
    cases made
    obtain ⟨typed, sizes, rows, even⟩ := columnsOf_read parsed said present ran
    obtain ⟨layouts, inFields⟩ := layouts_withColumns typed
    have listed := DocumentContent.dataColumns_of_ofJson (Json.bounds_of_read parsed).1 said present
    refine ⟨⟨layouts, rfl⟩, document, rows, parsed, ?_, ?_, ?_⟩
    · have count := congrArg List.length sizes
      have width := congrArg List.length inFields
      simp only [List.length_map] at count width
      rw [listed, List.length_map, ← count, ← width]
    · rw [listed]
      rintro _ member
      obtain ⟨values, inData, rfl⟩ := List.mem_map.1 member
      have size : values.length ∈ columns.map Column.size := sizes ▸ List.mem_map_of_mem inData
      obtain ⟨column, inColumns, same⟩ := List.mem_map.1 size
      exact ⟨values, rfl, same ▸ even column inColumns⟩
    · intro field member
      exact even field.column (inFields ▸ List.mem_map_of_mem member)

/-- Replacing the cells of any frame by those of any text is all or nothing. Either it is refused and
the frame is what it was, or nothing but cells has changed and all fields are as long as the columns
of the document. -/
theorem replaceInPlace_allOrNothing (frame : Frame) (octets : Octets) :
    (∃ error, (replaceInPlace octets).runOn frame = (.error error, frame) ∧
      frame.replaceData octets = .error error) ∨
    ∃ after document rows, (replaceInPlace octets).runOn frame = (.ok (), after) ∧
      frame.replaceData octets = .ok after ∧ frame.SameLayout after ∧
      Json.read octets = .ok document ∧ after.HoldsRows document rows := by
  have settled := replaceInPlace_settles frame octets
  cases replaced : frame.replaceData octets with
  | error error => exact .inl ⟨error, settled.refused replaced, rfl⟩
  | ok after =>
    obtain ⟨layout, document, rows, parsed, holds⟩ := replaceData_spec replaced
    exact .inr ⟨after, document, rows, settled.done replaced, rfl, layout, parsed, holds⟩

/-- A frame whose fields differ in length, and the data section of a document. -/
private def counters : Frame :=
  { fields := [⟨"up", Labels.empty, none, ⟨⟨.int8, false⟩, ⟨[Cell.of (1 : Int8), Cell.of (2 : Int8)]⟩⟩⟩,
      ⟨"down", Labels.empty, none, ⟨⟨.int8, true⟩, ⟨[Cell.of (5 : Int8)]⟩⟩⟩] }

private def dataOf (columns : String) : Octets :=
  Json.ascii ("\x7b\"data\":\x7b\"values\":[" ++ columns ++ "]\x7d\x7d").toList

/-- The second document is refused for its last cell. -/
example :
    (counters.replaceData (dataOf "[3],[null]")).toOption.map Frame.columns =
        some [⟨⟨.int8, false⟩, ⟨[Cell.of (3 : Int8)]⟩⟩, ⟨⟨.int8, true⟩, ⟨[Cell.empty rfl]⟩⟩] ∧
      (counters.replaceData (dataOf "[3,4],[null,128]")).toOption.map Frame.columns = none := by
  decide +kernel

end Frame

end Columnar
