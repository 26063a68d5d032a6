import Columnar.Document.Content
import Columnar.Document.Writing
import Columnar.Proofs.FrameMeta

/-! What the sections of a document say. The schema of a frame says everything about it but its
cells, and is read as that; the data section says the values of the cells and the rows of special
floats. -/
namespace Columnar

open DraftReader

namespace FieldType

theorem description_gives (origin : DraftOrigin) (type : FieldType) :
    (TypeContent.read origin).Gives type.description ⟨type.kind.name, type.nullable⟩ := by
  refine record_gives
    (.cons (carries_required "frame" (string_gives type.kind.name)) <|
     .cons (carries_mark "nullable" type.nullable rfl) .nil)
    (by decide) (List.pairwise_pair.2 fun _ => rfl) rfl ?_
  unfold description
  cases type.nullable <;> rfl

end FieldType

namespace Field

/-- What a schema says of a field. -/
def content (field : Field) : FieldContent where
  name := field.name
  coarse := some field.type.kind.coarse.name
  type := some ⟨field.type.kind.name, field.type.nullable⟩
  labels := if field.labels.isEmpty then none else some field.labels
  config := field.config

/-- The field with what is left of its configuration after writing and reading it. -/
def afterText (field : Field) : Field :=
  { field with config := field.config.map FieldConfig.afterText }

theorem afterText_of_expressible {field : Field}
    (expressible : ∀ config ∈ field.config, config.Expressible) : field.afterText = field := by
  have same : field.config.map FieldConfig.afterText = field.config := by
    cases found : field.config with
    | none => rfl
    | some config =>
      exact congrArg some (FieldConfig.afterText_of_expressible (expressible config found))
  rw [afterText, same]

theorem description_gives (origin : DraftOrigin) (field : Field) :
    (FieldContent.read origin).Gives field.description field.afterText.content := by
  refine record_gives
    (.cons (carries_nonempty "name" field.name rfl) <|
     .cons (carries_text "type" (some field.type.kind.coarse.name) rfl) <|
     .cons (carries_optional "typeInfo" (fun _ => field.type.description)
      (some ⟨field.type.kind.name, field.type.nullable⟩) ?_ rfl) <|
     .cons (carries_optional "labels" Labels.toJson
      (if field.labels.isEmpty then none else some field.labels)
      (fun labels _ => ⟨nofun, labels.read_gives⟩) rfl) <|
     .cons (carries_nullable "config" (field.config.map FieldConfig.toJson) ?_ ?_) .nil)
    (by cases origin <;> decide) ?_ rfl ?_
  · rintro _ ⟨⟩
    exact ⟨nofun, field.type.description_gives origin⟩
  · intro value present
    obtain ⟨config, here, rfl⟩ := Option.map_eq_some_iff.1 present
    rw [afterText, here]
    exact nullable_gives (config.read_gives_afterText origin) nofun
  · intro absent
    rw [afterText, Option.map_eq_none_iff.1 absent]
    rfl
  · simp [Entry.Independent]
  · rw [description, Json.textMember]
    cases field.labels.isEmpty <;> cases field.name.isEmpty <;> cases field.config <;> rfl

end Field

namespace Frame

/-- What the schema of a frame says. -/
def schemaContent (frame : Frame) : SchemaContent where
  name := frame.name
  refId := frame.refId
  info := frame.info
  fields := frame.fields.map Field.content

/-- The frame with what is left of its configurations and metadata after writing and reading
them. -/
def afterText (frame : Frame) : Frame :=
  { frame with
    info := frame.info.map FrameMeta.afterText
    fields := frame.fields.map Field.afterText }

theorem afterText_of_expressible {frame : Frame} (info : ∀ info ∈ frame.info, info.Expressible)
    (configs : ∀ field ∈ frame.fields, ∀ config ∈ field.config, config.Expressible) :
    frame.afterText = frame := by
  have sameInfo : frame.info.map FrameMeta.afterText = frame.info := by
    cases found : frame.info with
    | none => rfl
    | some content => exact congrArg some (FrameMeta.afterText_of_expressible (info content found))
  have sameField : ∀ field ∈ frame.fields, field.afterText = field :=
    fun field member => Field.afterText_of_expressible (configs field member)
  rw [afterText, sameInfo, List.map_congr_left sameField, List.map_id']

/-- Every figure about the query behind the frame is a number. -/
def FiguresFinite (frame : Frame) : Prop := ∀ info ∈ frame.info, info.FiguresFinite

/-- The members of the schema, and what reading them does to what a schema says. -/
private def schemaEntries (frame : Frame) : List (Entry SchemaContent) :=
  [⟨"name", if frame.name.isEmpty then none else some (.string frame.name),
      ({ · with name := frame.name })⟩,
    ⟨"refId", if frame.refId.isEmpty then none else some (.string frame.refId),
      ({ · with refId := frame.refId })⟩,
    ⟨"meta", frame.info.map FrameMeta.toJson, ({ · with info := frame.afterText.info })⟩,
    ⟨"fields", some (.list (frame.fields.map Field.description)),
      ({ · with fields := frame.fields.map fun field => field.afterText.content })⟩]

private theorem schema_eq (frame : Frame) :
    frame.schema = .object (frame.schemaEntries.flatMap Entry.members) := by
  rw [schema, schemaEntries, Json.textMember, Json.textMember]
  cases frame.name.isEmpty <;> cases frame.refId.isEmpty <;> cases frame.info <;> rfl

private theorem fields_gives (origin : DraftOrigin) (frame : Frame) :
    (listOf (FieldContent.read origin)).Gives (.list (frame.fields.map Field.description))
      (frame.fields.map fun field => field.afterText.content) :=
  listOf_gives _ fun field _ => field.description_gives origin

/-- The schema is read as what is left of the frame, when the figures are numbers. -/
theorem schema_gives_afterText (origin : DraftOrigin) {frame : Frame}
    (finite : frame.FiguresFinite) :
    (SchemaContent.read origin).Gives frame.schema frame.afterText.schemaContent := by
  refine record_gives
    (.cons (carries_nonempty "name" frame.name rfl) <|
     .cons (carries_nonempty "refId" frame.refId rfl) <|
     .cons (carries_nullable "meta" (frame.info.map FrameMeta.toJson) ?_ ?_) <|
     .cons (carries_written "fields" [] (fields_gives origin frame)) .nil)
    (by cases origin <;> decide) ?_ ?_ frame.schema_eq
  · intro value present
    obtain ⟨info, here, rfl⟩ := Option.map_eq_some_iff.1 present
    rw [afterText, here]
    exact nullable_gives (FrameMeta.read_gives_afterText origin (finite info here)) nofun
  · intro absent
    rw [afterText, Option.map_eq_none_iff.1 absent]
    rfl
  · simp [Entry.Independent]
  · simp [schemaContent, afterText]

/-- A schema with a figure that is not finite is refused. -/
theorem schema_refuses (origin : DraftOrigin) {frame : Frame} (stray : ¬frame.FiguresFinite) :
    (SchemaContent.read origin).Refuses frame.schema := by
  obtain ⟨info, found, stray⟩ : ∃ info ∈ frame.info, ¬info.FiguresFinite := by
    simpa [FiguresFinite] using stray
  have refused : (nullable (FrameMeta.read origin)).Refuses info.toJson :=
    nullable_refuses (FrameMeta.read_refuses origin stray) nofun
  have listed : ("meta", info.toJson) ∈ frame.schemaEntries.flatMap Entry.members := by
    have here : frame.info = some info := found
    simp [schemaEntries, Entry.members, Json.optionalMember, here]
  rw [schema_eq]
  refine record_refuses listed rfl fun draft told record result set => ?_
  obtain ⟨content, found, -⟩ := map_eq_ok_iff.1 set
  exact refused draft told content found

/-- No name repeats in a schema, whatever the figures are. -/
theorem distinct_schema (frame : Frame) : frame.schema.Distinct := by
  have texts : ∀ s : String, ∀ value ∈ if s.isEmpty then none else some (Json.string s),
      value.Distinct := by
    intro s value present
    split at present <;> cases present
    trivial
  have info : ∀ value ∈ frame.info.map FrameMeta.toJson, value.Distinct := by
    intro value present
    obtain ⟨info, -, rfl⟩ := Option.map_eq_some_iff.1 present
    exact info.distinct_toJson
  have fields : ∀ value ∈ some (Json.list (frame.fields.map Field.description)),
      value.Distinct := by
    rintro _ ⟨⟩
    exact (fields_gives .value frame).distinct
  have names : (frame.schemaEntries.map Entry.name).Nodup := by
    simp [schemaEntries]
  rw [schema_eq]
  refine distinct_members names ?_
  simp only [schemaEntries, List.forall_mem_cons]
  exact ⟨texts _, texts _, info, fields, List.forall_mem_nil _⟩

end Frame

namespace Entities

/-- The rows that a document can list. -/
def Small (entities : Entities) : Prop :=
  ∀ row ∈ entities.nan ++ entities.infinity ++ entities.negInfinity, row < 0x10000000000000000

theorem read_gives (origin : DraftOrigin) {entities : Entities} (small : entities.Small) :
    (Entities.read origin).Gives entities.toJson entities := by
  have row : ∀ row < 0x10000000000000000, (natural 64 "usize").Gives (Json.ofNat row) row :=
    fun row bound => natural_gives "usize" bound bound
  refine record_gives
    (.cons (carries_items "NaN" Json.ofNat entities.nan
      (fun n member => row n (small n (by simp [member]))) rfl) <|
     .cons (carries_items "Inf" Json.ofNat entities.infinity
      (fun n member => row n (small n (by simp [member]))) rfl) <|
     .cons (carries_items "NegInf" Json.ofNat entities.negInfinity
      (fun n member => row n (small n (by simp [member]))) rfl) .nil)
    (by decide) ?_ rfl ?_
  · simp [Entry.Independent]
  · simp only [toJson, List.flatMap_cons, List.flatMap_nil, Entry.members, List.append_assoc,
      List.append_nil, Json.optionalMember_unless]

/-- An entry of the table of special floats. -/
def entryJson : Option Entities → Json
  | none => .null
  | some entities => entities.toJson

theorem entry_gives (origin : DraftOrigin) {entry : Option Entities}
    (small : ∀ entities ∈ entry, entities.Small) :
    (nullable (Entities.read origin)).Gives (entryJson entry) entry := by
  cases entry with
  | none => exact nullable_gives_none
  | some entities => exact nullable_gives (read_gives origin (small entities rfl)) nofun

end Entities

namespace DataContent

/-- The data section as a value; without special floats there is no table of them. -/
def toJson (data : DataContent) : Json :=
  .object (("fields", .list (data.columns.map Json.list))
    :: Json.optionalMember "entities"
      (if data.entities.isEmpty then none else some (.list (data.entities.map Entities.entryJson))))

theorem read_gives (origin : DraftOrigin) (data : DataContent)
    (ordered : ∀ column ∈ data.columns, ∀ value ∈ column, value.Ordered)
    (small : ∀ entry ∈ data.entities, ∀ entities ∈ entry, entities.Small) :
    (DataContent.read origin).Gives data.toJson data := by
  have columns : (listOf (listOf json)).Gives (.list (data.columns.map Json.list)) data.columns :=
    listOf_gives_self fun column member => by
      have values : ∀ value ∈ column, json.Gives (id value) value :=
        fun value inColumn => json_gives (ordered column member value inColumn)
      have := listOf_gives_self values
      rwa [List.map_id] at this
  refine record_gives
    (.cons (carries_written "fields" ["values"] columns) <|
     .cons (carries_items "entities" Entities.entryJson data.entities
      (fun entry member => Entities.entry_gives origin (small entry member)) rfl) .nil)
    (by cases origin <;> decide) (List.pairwise_pair.2 fun _ => rfl) rfl ?_
  simp [toJson, Entry.members, Json.optionalMember]

end DataContent

namespace DocumentContent

/-- A document with both sections is read as what they say. -/
theorem read_gives (origin : DraftOrigin) {schema data : Json}
    {schemaContent : SchemaContent} {dataContent : DataContent}
    (left : schema ≠ .null ∧ (SchemaContent.read origin).Gives schema schemaContent)
    (right : data ≠ .null ∧ (DataContent.read origin).Gives data dataContent) :
    (DocumentContent.read origin).Gives (.object [("schema", schema), ("data", data)])
      ⟨some schemaContent, some dataContent⟩ := by
  refine record_gives
    (.cons (carries_optional "schema" (fun _ => schema) (some schemaContent) ?_ rfl) <|
     .cons (carries_optional "data" (fun _ => data) (some dataContent) ?_ rfl) .nil)
    (by cases origin <;> decide) (List.pairwise_pair.2 fun _ => rfl) rfl rfl
  · rintro _ ⟨⟩
    exact left
  · rintro _ ⟨⟩
    exact right

/-- All sections are objects in a value that tells objects as its sections. -/
private theorem checkSection_of_told (sections : List (String × List (String × Json)))
    {members : List (String × Json)}
    (told : (Json.object (sections.map fun (name, inner) => (name, .object inner))).ToldBy
      (Json.object members).toDraft) (name : String) : checkSection members name = .ok () := by
  obtain ⟨drafts, inOrder, shape, moved, told⟩ := told
  cases shape
  unfold checkSection
  cases found : members.lookup name with
  | none => rfl
  | some value =>
    have listed : ((⟨.ok name, none⟩ : DraftText), value.toDraft) ∈ inOrder := by
      rw [← moved.mem_iff, Json.memberDrafts_eq]
      exact List.mem_map.2 ⟨(name, value), mem_of_lookup_eq_some found, rfl⟩
    obtain ⟨part, inParts, -, here⟩ := exists_left_of_forall₂ (Json.membersTold_iff.1 told) listed
    obtain ⟨⟨known, inner⟩, -, rfl⟩ := List.mem_map.1 inParts
    obtain ⟨parts, others, object, -⟩ := here
    cases value with
    | object => rfl
    | _ => cases object

/-- A value that tells a document with both sections is read as what they say. -/
theorem ofJson_of_told {value : Json} {schema data : List (String × Json)}
    {schemaContent : SchemaContent} {dataContent : DataContent}
    (told : (Json.object [("schema", .object schema), ("data", .object data)]).ToldBy value.toDraft)
    (left : (SchemaContent.read .value).Gives (.object schema) schemaContent)
    (right : (DataContent.read .value).Gives (.object data) dataContent) :
    ofJson value = .ok ⟨some schemaContent, some dataContent⟩ := by
  have read := (read_gives .value ⟨by rintro ⟨⟩, left⟩ ⟨by rintro ⟨⟩, right⟩).reads _ told
  cases value with
  | object members =>
    have sections := checkSection_of_told [("schema", schema), ("data", data)] told
    refine bind_eq_ok_iff.2 ⟨(), sections "schema", bind_eq_ok_iff.2 ⟨(), sections "data", ?_⟩⟩
    rw [ofValue, read]
    rfl
  | _ =>
    obtain ⟨drafts, others, shape, -⟩ := told
    cases shape

/-- A value that tells a document is refused when the schema is. -/
theorem ofJson_refuses {value schema data : Json}
    (told : (Json.object [("schema", schema), ("data", data)]).ToldBy value.toDraft)
    (present : schema ≠ .null) (refused : (SchemaContent.read .value).Refuses schema)
    (result : DocumentContent) : ofJson value ≠ .ok result := by
  have inPlace := nullable_refuses refused present
  have whole : (DocumentContent.read .value).Refuses
      (.object [("schema", schema), ("data", data)]) := by
    refine record_refuses (.head _) rfl fun draft told record result set => ?_
    obtain ⟨content, found, -⟩ := map_eq_ok_iff.1 set
    exact inPlace draft told content found
  intro ran
  cases value with
  | object members =>
    obtain ⟨-, -, ran⟩ := bind_eq_ok_iff.1 ran
    obtain ⟨-, -, ran⟩ := bind_eq_ok_iff.1 ran
    exact whole _ told result (mapError_eq_ok_iff.1 ran)
  | _ => cases ran

end DocumentContent

end Columnar
