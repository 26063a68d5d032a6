import Columnar.Proofs.Document.Cache
import Columnar.Proofs.Json.Made
import Columnar.Proofs.Json.Placed

/-! Documents in two parts. A schema with fields and a data section make the same frame whether they
stand in one document, or the schema makes a frame without rows and the data is put into it. -/
namespace Columnar

section Texts

open Json (syntaxFault? syntaxFault?_octets syntaxFault?_of_spells)

private theorem sound_integer (n : Int) : syntaxFault? (Json.ascii (integerChars n)) = none := by
  rw [ascii_integerChars]
  exact syntaxFault?_of_spells (Draft.spells_numeral (wellFormed_ofInt n))

/-- Elements are written as sound texts, also those that are not read back. -/
theorem Kind.sound_document (kind : Kind) (x : kind.Element) :
    syntaxFault? (kind.document x) = none := by
  cases kind with
  | float32 =>
    rw [document]
    split
    · exact syntaxFault?_octets .null
    next plain =>
      obtain ⟨negative, significand, exponent, finite⟩ := SpecialFloat.finite_of_ofClass? plain
      obtain ⟨n, wellFormed, written⟩ :=
        exists_numeral_write .documentSingle .single negative significand exponent
      rw [finite, written]
      exact syntaxFault?_of_spells (Draft.spells_numeral wellFormed)
  | float64 => exact syntaxFault?_octets (Json.ofReal x)
  | string => exact syntaxFault?_octets (.string x)
  | bool => exact syntaxFault?_octets (.bool x)
  | time => exact sound_integer _
  | json => exact RawJson.sound x
  | _ => exact sound_integer _

theorem Column.sound_document (column : Column) : syntaxFault? column.document = none := by
  refine Json.syntaxFault?_list fun text member => ?_
  obtain ⟨cell, -, rfl⟩ := List.mem_map.1 member
  rw [Cell.document]
  split
  · exact Kind.sound_document _ _
  · exact syntaxFault?_octets .null

/-- The data section of a frame is written as an object of sound texts. -/
theorem Frame.exists_texts_of_dataSection {frame : Frame} {octets : Octets}
    (written : frame.dataSection = .ok octets) :
    ∃ texts, octets = Json.objectOctets texts ∧ ∀ text ∈ texts, syntaxFault? text.2 = none := by
  obtain ⟨-, -, written⟩ := bind_eq_ok_iff.1 written
  cases written
  refine ⟨_, rfl, List.forall_mem_cons.2 ⟨?_, ?_⟩⟩
  · refine Json.syntaxFault?_list fun text member => ?_
    obtain ⟨field, -, rfl⟩ := List.mem_map.1 member
    exact field.column.sound_document
  · split
    next table _ => exact List.forall_mem_singleton.2 (syntaxFault?_octets table)
    · exact List.forall_mem_nil _

end Texts

section Contents

variable {members data : List (String × Json)}

/-- A schema that lists a field has a field. -/
theorem SchemaContent.fields_ne_nil {first : Json} {rest : List Json} {schema : SchemaContent}
    (listed : ("fields", Json.list (first :: rest)) ∈ members)
    (read : DraftReader.ofValue SchemaContent.read (.object members) = .ok schema) :
    schema.fields ≠ [] := by
  unfold DraftReader.ofValue SchemaContent.read at read
  refine DraftReader.holds_of_listed (fun schema => schema.fields ≠ []) listed rfl ?_ ?_ read
  · intro record result set
    obtain ⟨fields, found, rfl⟩ := map_eq_ok_iff.1 set
    change DraftReader.items _ _ (first.toDraft :: Json.itemDrafts rest) = _ at found
    rw [DraftReader.items] at found
    split at found
    · cases found
    · obtain ⟨others, -, rfl⟩ := map_eq_ok_iff.1 found
      exact List.cons_ne_nil _ _
  · simp only [List.forall_mem_cons]
    refine ⟨?_, ?_, ?_, ?_, List.forall_mem_nil _⟩
    all_goals
      intro other draft record result set holds
      obtain ⟨value, -, rfl⟩ := map_eq_ok_iff.1 set
    · exact holds
    · exact holds
    · exact holds
    · exact absurd rfl other

section Members

variable {α β : Type} {fields : List (DraftReader.Member α)} {field : DraftReader.Member α}
variable {ending : DraftEnd} {seen : List String} {record : α} {key : String} {value : Json}

/-- The first member of an object is set when it is known and has not been met before. -/
private theorem setMembers_cons {rest : List (String × Json)}
    (found : fields.find? (·.names.contains key) = some field)
    (fresh : seen.contains field.name = false) :
    DraftReader.setMembers fields ending seen record (Json.memberDrafts ((key, value) :: rest)) =
      (field.set value.toDraft record).bind fun record =>
        DraftReader.setMembers fields ending (field.name :: seen) record
          (Json.memberDrafts rest) := by
  rw [Json.memberDrafts, DraftReader.setMembers]
  simp only [found, fresh]
  cases field.set value.toDraft record <;> rfl

private theorem set_optional (name : String) (inList : Bool) (read : DraftReader β)
    (set : Option β → α → α) (members : List (String × Json)) (record : α) :
    (DraftReader.optional name inList read set).set (Json.object members).toDraft record =
      (read (Json.object members).toDraft).map fun content => set (some content) record := by
  change ((read (Json.object members).toDraft).map some).map _ = _
  cases read (Json.object members).toDraft <;> rfl

end Members

/-- Each section of a document is read by itself. -/
theorem DocumentContent.ofJson_sections (members data : List (String × Json)) :
    ofJson (.object [("data", .object data), ("schema", .object members)]) = do
      let data ← (DraftReader.ofValue DataContent.read (.object data)).mapError .malformed
      let schema ← (DraftReader.ofValue SchemaContent.read (.object members)).mapError .malformed
      return ⟨some schema, some data⟩ := by
  change (DraftReader.ofValue DocumentContent.read _).mapError _ = _
  unfold DraftReader.ofValue DocumentContent.read
  rw [Json.toDraft, DraftReader.record, setMembers_cons rfl rfl, set_optional]
  cases DataContent.read .value (Json.object data).toDraft with
  | error fault => rfl
  | ok content =>
    dsimp only [Except.map, Except.bind]
    rw [setMembers_cons rfl rfl, set_optional]
    cases SchemaContent.read .value (Json.object members).toDraft <;> rfl

theorem DocumentContent.ofJson_schema (members : List (String × Json)) :
    ofJson (.object [("schema", .object members)]) = do
      let schema ← (DraftReader.ofValue SchemaContent.read (.object members)).mapError .malformed
      return ⟨some schema, none⟩ := by
  change (DraftReader.ofValue DocumentContent.read _).mapError _ = _
  unfold DraftReader.ofValue DocumentContent.read
  rw [Json.toDraft, DraftReader.record, setMembers_cons rfl rfl, set_optional]
  cases SchemaContent.read .value (Json.object members).toDraft <;> rfl

theorem DocumentContent.ofJson_data (data : List (String × Json)) :
    ofJson (.object [("data", .object data)]) = do
      let data ← (DraftReader.ofValue DataContent.read (.object data)).mapError .malformed
      return ⟨none, some data⟩ := by
  change (DraftReader.ofValue DocumentContent.read _).mapError _ = _
  unfold DraftReader.ofValue DocumentContent.read
  rw [Json.toDraft, DraftReader.record, setMembers_cons rfl rfl, set_optional]
  cases DataContent.read .value (Json.object data).toDraft <;> rfl

theorem FieldContent.length_fieldsFrom {contents : List FieldContent} {position : Nat}
    {fields : List Field} (made : fieldsFrom position contents = .ok fields) :
    fields.length = contents.length := by
  induction contents generalizing position fields with
  | nil =>
    cases made
    rfl
  | cons content rest ih =>
    obtain ⟨type, -, made⟩ := bind_eq_ok_iff.1 made
    obtain ⟨others, later, made⟩ := bind_eq_ok_iff.1 made
    cases made
    exact congrArg Nat.succ (ih later)

/-- A data section is put into the frame of its schema, unless it has columns and the schema has no
fields for them. -/
theorem Frame.ofContent_sections {schema : SchemaContent} {data : DataContent}
    (own : schema.fields ≠ [] ∨ data.columns = []) :
    ofContent ⟨some schema, some data⟩ =
      (ofContent ⟨some schema, none⟩).bind fun shell => shell.withData data := by
  cases made : ofSchema schema with
  | error fault => simp only [ofContent, made, bind, Except.bind]
  | ok shell =>
    obtain ⟨fields, read, same⟩ := bind_eq_ok_iff.1 made
    have length := FieldContent.length_fieldsFrom read
    -- Columns bring fields of their own only where the schema has none.
    have kept : ∀ inferred : List Field, (data.columns = [] → inferred = []) →
        (if shell.fields.isEmpty then { shell with fields := inferred } else shell) = shell := by
      intro inferred nothing
      cases same
      split
      next empty =>
        cases List.isEmpty_iff.1 empty
        obtain fields | columns := own
        · exact absurd (List.length_eq_zero_iff.1 length.symm) fields
        · rw [nothing columns]
      · rfl
    simp only [ofContent, made, bind, Except.bind, pure, Except.pure]
    rw [kept]
    intro columns
    rw [columns, List.map_nil]

end Contents

/-- The text is read inside a document as an object with this content. -/
def DraftReader.ReadsSection {α : Type} (read : DraftOrigin → DraftReader α) (octets : Octets)
    (content : α) : Prop :=
  ∃ members, Json.ReadInside octets (.object members) ∧
    DraftReader.ofValue read (.object members) = .ok content

/-- Nothing but an object is read of the document. -/
def RawJson.HoldsObject (raw : RawJson) : Prop :=
  ∀ value, raw.value = .ok value → ∃ members, value = .object members

/-- Nothing but an object is read of the document, with an entry in its list of fields. -/
def RawJson.ListsFields (raw : RawJson) : Prop :=
  ∀ value, raw.value = .ok value → ∃ members first rest,
    value = .object members ∧ members.lookup "fields" = some (.list (first :: rest))

theorem RawJson.ListsFields.holdsObject {raw : RawJson} (lists : raw.ListsFields) :
    raw.HoldsObject := by
  intro value read
  obtain ⟨members, -, -, rfl, -⟩ := lists value read
  exact ⟨members, rfl⟩

namespace Frame

open DraftReader (ReadsSection)

variable {frame shell : Frame} {schema data : RawJson} {value : Json}

section Reading

private theorem read_section (name : String) (raw : RawJson) :
    Json.read (Json.objectOctets [(name, raw.octets)]) = .ok value ↔
      ∃ inside, Json.ReadInside raw.octets inside ∧ value = .object [(name, inside)] := by
  rw [Json.read_object_iff (List.forall_mem_singleton.2 raw.sound)]
  constructor
  · rintro ⟨_, all, rfl⟩
    cases all with
    | @cons _ member _ _ here rest =>
      cases rest
      obtain ⟨key, inside⟩ := member
      obtain ⟨rfl, here⟩ := here
      exact ⟨inside, here, rfl⟩
  · rintro ⟨inside, here, rfl⟩
    exact ⟨[(name, inside)], .cons ⟨rfl, here⟩ .nil, rfl⟩

private theorem read_sections (schema data : RawJson) :
    Json.read (Json.objectOctets [("schema", schema.octets), ("data", data.octets)]) = .ok value ↔
      ∃ first second, Json.ReadInside schema.octets first ∧ Json.ReadInside data.octets second ∧
        value = .object [("data", second), ("schema", first)] := by
  have sound : ∀ text ∈ [("schema", schema.octets), ("data", data.octets)],
      Json.syntaxFault? text.2 = none :=
    List.forall_mem_cons.2 ⟨schema.sound, List.forall_mem_singleton.2 data.sound⟩
  have before : "data" < "schema" := by decide
  have inOrder : ∀ first second : Json, Keyed.insertAll [("schema", first), ("data", second)] [] =
      [("data", second), ("schema", first)] :=
    fun first second => Keyed.insertAll_eq (.swap ..) (List.pairwise_pair.2 before)
  rw [Json.read_object_iff sound]
  constructor
  · rintro ⟨_, all, rfl⟩
    cases all with
    | @cons _ member _ _ here rest =>
      cases rest with
      | @cons _ other _ _ there rest =>
        cases rest
        obtain ⟨key, first⟩ := member
        obtain ⟨name, second⟩ := other
        obtain ⟨rfl, here⟩ := here
        obtain ⟨rfl, there⟩ := there
        exact ⟨first, second, here, there, congrArg Json.object (inOrder first second)⟩
  · rintro ⟨first, second, here, there, rfl⟩
    exact ⟨_, .cons ⟨rfl, here⟩ (.cons ⟨rfl, there⟩ .nil),
      congrArg Json.object (inOrder first second).symm⟩

/-- Inside a document, too, nothing but an object is read. -/
private theorem object_of_inside {raw : RawJson} (object : raw.HoldsObject)
    (inside : Json.ReadInside raw.octets value) : ∃ members, value = .object members :=
  object value (Json.read_of_readInside raw.sound inside)

private theorem ofDocument_iff {octets : Octets} :
    ofDocument octets = .ok frame ↔ ∃ value content, Json.read octets = .ok value ∧
      DocumentContent.ofJson value = .ok content ∧ ofContent content = .ok frame := by
  constructor
  · intro ran
    obtain ⟨value, read, ran⟩ := bind_eq_ok_iff.1 ran
    obtain ⟨content, found, made⟩ := bind_eq_ok_iff.1 ran
    exact ⟨value, content, mapError_eq_ok_iff.1 read, mapError_eq_ok_iff.1 found, made⟩
  · rintro ⟨value, content, read, found, made⟩
    exact bind_eq_ok_iff.2 ⟨value, mapError_eq_ok_iff.2 read,
      bind_eq_ok_iff.2 ⟨content, mapError_eq_ok_iff.2 found, made⟩⟩

private theorem ofDocument_schema_iff (object : schema.HoldsObject) :
    ofDocument (Json.objectOctets [("schema", schema.octets)]) = .ok frame ↔
      ∃ content, ReadsSection SchemaContent.read schema.octets content ∧
        ofContent ⟨some content, none⟩ = .ok frame := by
  rw [ofDocument_iff]
  constructor
  · rintro ⟨_, content, read, found, made⟩
    obtain ⟨inside, here, rfl⟩ := (read_section "schema" schema).1 read
    obtain ⟨members, rfl⟩ := object_of_inside object here
    rw [DocumentContent.ofJson_schema] at found
    obtain ⟨part, read, found⟩ := bind_eq_ok_iff.1 found
    cases found
    exact ⟨part, ⟨members, here, mapError_eq_ok_iff.1 read⟩, made⟩
  · rintro ⟨content, ⟨members, here, read⟩, made⟩
    refine ⟨_, _, (read_section "schema" schema).2 ⟨_, here, rfl⟩, ?_, made⟩
    rw [DocumentContent.ofJson_schema, read]
    rfl

private theorem replaceData_iff (object : data.HoldsObject) :
    shell.replaceData (Json.objectOctets [("data", data.octets)]) = .ok frame ↔
      ∃ content, ReadsSection DataContent.read data.octets content ∧
        shell.withData content = .ok frame := by
  constructor
  · intro ran
    obtain ⟨value, read, ran⟩ := bind_eq_ok_iff.1 ran
    obtain ⟨content, found, made⟩ := bind_eq_ok_iff.1 ran
    obtain ⟨inside, here, rfl⟩ := (read_section "data" data).1 (mapError_eq_ok_iff.1 read)
    obtain ⟨members, rfl⟩ := object_of_inside object here
    rw [mapError_eq_ok_iff, DocumentContent.ofJson_data] at found
    obtain ⟨part, read, found⟩ := bind_eq_ok_iff.1 found
    cases found
    exact ⟨part, ⟨members, here, mapError_eq_ok_iff.1 read⟩, made⟩
  · rintro ⟨content, ⟨members, here, read⟩, made⟩
    refine bind_eq_ok_iff.2 ⟨_, mapError_eq_ok_iff.2 ((read_section "data" data).2 ⟨_, here, rfl⟩),
      bind_eq_ok_iff.2 ⟨⟨none, some content⟩, ?_, made⟩⟩
    rw [DocumentContent.ofJson_data, read]
    rfl

private theorem ofDocument_sections_iff (schemaObject : schema.HoldsObject)
    (dataObject : data.HoldsObject) :
    ofDocument (Json.objectOctets [("schema", schema.octets), ("data", data.octets)]) = .ok frame ↔
      ∃ content cells, ReadsSection SchemaContent.read schema.octets content ∧
        ReadsSection DataContent.read data.octets cells ∧
        ofContent ⟨some content, some cells⟩ = .ok frame := by
  rw [ofDocument_iff]
  constructor
  · rintro ⟨_, content, read, found, made⟩
    obtain ⟨first, second, here, there, rfl⟩ := (read_sections schema data).1 read
    obtain ⟨members, rfl⟩ := object_of_inside schemaObject here
    obtain ⟨cells, rfl⟩ := object_of_inside dataObject there
    rw [DocumentContent.ofJson_sections] at found
    obtain ⟨second, dataRead, found⟩ := bind_eq_ok_iff.1 found
    obtain ⟨first, schemaRead, found⟩ := bind_eq_ok_iff.1 found
    cases found
    exact ⟨first, second, ⟨members, here, mapError_eq_ok_iff.1 schemaRead⟩,
      ⟨cells, there, mapError_eq_ok_iff.1 dataRead⟩, made⟩
  · rintro ⟨content, cells, ⟨members, here, schemaRead⟩, ⟨others, there, dataRead⟩, made⟩
    refine ⟨_, _, (read_sections schema data).2 ⟨_, _, here, there, rfl⟩, ?_, made⟩
    rw [DocumentContent.ofJson_sections, schemaRead, dataRead]
    rfl

end Reading

/-- A document with both sections is read as a frame just when its schema is read as a frame in which
its data can be put, unless there is data for fields that the schema does not have. -/
private theorem ofDocument_apart (schemaObject : schema.HoldsObject) (dataObject : data.HoldsObject)
    (own : (∀ content, ReadsSection SchemaContent.read schema.octets content →
        content.fields ≠ []) ∨
      ∀ content, ReadsSection DataContent.read data.octets content → content.columns = []) :
    ofDocument (Json.objectOctets [("schema", schema.octets), ("data", data.octets)]) = .ok frame ↔
      ∃ shell, ofDocument (Json.objectOctets [("schema", schema.octets)]) = .ok shell ∧
        shell.replaceData (Json.objectOctets [("data", data.octets)]) = .ok frame := by
  have split : ∀ content cells, ReadsSection SchemaContent.read schema.octets content →
      ReadsSection DataContent.read data.octets cells →
      ofContent ⟨some content, some cells⟩ =
        (ofContent ⟨some content, none⟩).bind fun shell => shell.withData cells := by
    intro content cells schemaRead dataRead
    exact ofContent_sections (own.imp (fun fields => fields content schemaRead)
      fun columns => columns cells dataRead)
  simp only [ofDocument_sections_iff schemaObject dataObject, ofDocument_schema_iff schemaObject,
    replaceData_iff dataObject]
  constructor
  · rintro ⟨content, cells, schemaRead, dataRead, made⟩
    rw [split content cells schemaRead dataRead] at made
    obtain ⟨shell, shellMade, made⟩ := bind_eq_ok_iff.1 made
    exact ⟨shell, ⟨content, schemaRead, shellMade⟩, cells, dataRead, made⟩
  · rintro ⟨shell, ⟨content, schemaRead, shellMade⟩, cells, dataRead, made⟩
    refine ⟨content, cells, schemaRead, dataRead, ?_⟩
    rw [split content cells schemaRead dataRead]
    exact bind_eq_ok_iff.2 ⟨shell, shellMade, made⟩

private theorem fields_of_listsFields (lists : schema.ListsFields) {content : SchemaContent}
    (reads : ReadsSection SchemaContent.read schema.octets content) : content.fields ≠ [] := by
  obtain ⟨members, inside, read⟩ := reads
  obtain ⟨_, first, rest, same, found⟩ := lists _ (Json.read_of_readInside schema.sound inside)
  cases same
  exact SchemaContent.fields_ne_nil (mem_of_lookup_eq_some found) read

section Written

private theorem sound_texts (members : List (String × Json)) :
    ∀ text ∈ Json.texts members, Json.syntaxFault? text.2 = none := by
  intro text member
  obtain ⟨other, -, rfl⟩ := List.mem_map.1 member
  exact Json.syntaxFault?_octets other.2

private theorem holdsObject_of_octets {raw : RawJson} {texts : List (String × Octets)}
    (written : raw.octets = Json.objectOctets texts)
    (sound : ∀ text ∈ texts, Json.syntaxFault? text.2 = none) : raw.HoldsObject := by
  intro value read
  rw [RawJson.value, written] at read
  obtain ⟨members, -, rfl⟩ := (Json.read_object_iff sound).1 read
  exact ⟨_, rfl⟩

private theorem document_eq_object {octets : Octets} (written : frame.dataSection = .ok octets)
    (parts : FrameParts) :
    frame.document parts = .ok (Json.objectOctets
      ((if parts.hasSchema then [("schema", frame.schema.octets)] else []) ++
        if parts.hasData then [("data", octets)] else [])) := by
  rw [DocumentCache.document_eq written, DocumentCache.octets_ofSections]

/-- Every member of an object that is read is read by itself, when no name repeats. -/
private theorem member_of_read {own found : List (String × Json)} {name : String}
    (distinct : (own.map Prod.fst).Nodup)
    (read : Json.read (Json.object own).octets = .ok (.object found))
    (listed : (name, value) ∈ own) :
    ∃ item, (name, item) ∈ found ∧ Json.read value.octets = .ok item := by
  rw [Json.octets_object, Json.read_object_iff (sound_texts own)] at read
  obtain ⟨members, all, same⟩ := read
  cases same
  have names : members.map Prod.fst = own.map Prod.fst := by
    rw [map_eq_of_forall₂ (forall₂_imp_of_mem all fun _ _ _ both => both.1)]
    simp [Json.texts]
  have kept : (Keyed.insertAll members []).Perm members := by
    have once : ((members ++ []).map Prod.fst).Nodup := by rwa [List.append_nil, names]
    simpa using Keyed.insertAll_perm once
  obtain ⟨⟨_, item⟩, member, rfl, inside⟩ :=
    exists_right_of_forall₂ all (List.mem_map_of_mem listed)
  exact ⟨item, kept.mem_iff.2 member,
    Json.read_of_readInside (Json.syntaxFault?_octets value) inside⟩

/-- The schema of a frame with fields lists fields, whatever numbers it holds. -/
private theorem fields_of_schema (present : frame.fields ≠ []) {content : SchemaContent}
    (reads : ReadsSection SchemaContent.read frame.schema.octets content) :
    content.fields ≠ [] := by
  obtain ⟨members, inside, contentRead⟩ := reads
  -- What is read need not be the schema itself, since its numbers may be read as others; but it has
  -- the same members, and its list of fields is as long.
  have read := Json.read_of_readInside (Json.syntaxFault?_octets frame.schema) inside
  have last : ("fields", Json.list (frame.fields.map Field.description)) ∈
      Json.textMember "name" frame.name ++ Json.textMember "refId" frame.refId
        ++ Json.optionalMember "meta" (frame.info.map FrameMeta.toJson)
        ++ [("fields", .list (frame.fields.map Field.description))] :=
    List.mem_append_right _ (List.mem_singleton.2 rfl)
  obtain ⟨list, listed, listRead⟩ := member_of_read frame.distinct_schema.1 read last
  have sound : ∀ text ∈ (frame.fields.map Field.description).map Json.octets,
      Json.syntaxFault? text = none := by
    intro text member
    obtain ⟨description, -, rfl⟩ := List.mem_map.1 member
    exact Json.syntaxFault?_octets description
  rw [Json.octets, Json.itemOctets_eq, Json.read_list_iff sound] at listRead
  obtain ⟨items, all, rfl⟩ := listRead
  obtain ⟨field, fields, here⟩ := List.exists_cons_of_ne_nil present
  rw [here] at all
  cases all with
  | cons first rest => exact SchemaContent.fields_ne_nil listed contentRead

private theorem columns_of_dataSection (absent : frame.fields = []) {octets : Octets}
    (written : frame.dataSection = .ok octets) {content : DataContent}
    (reads : ReadsSection DataContent.read octets content) : content.columns = [] := by
  obtain ⟨members, inside, read⟩ := reads
  rw [dataSection, checkLengths, entityTable?, absent] at written
  cases written
  have noText : ∀ text ∈ ([] : List Octets), Json.syntaxFault? text = none := List.forall_mem_nil _
  have noList : Json.syntaxFault? (Json.listOctets []) = none := Json.syntaxFault?_list noText
  have sound : ∀ text ∈ [("fields", Json.listOctets [])], Json.syntaxFault? text.2 = none :=
    List.forall_mem_singleton.2 noList
  have whole := Json.read_of_readInside (Json.syntaxFault?_object sound) inside
  obtain ⟨found, all, same⟩ := (Json.read_object_iff sound).1 whole
  cases same
  cases all with
  | @cons _ member _ _ here rest =>
    cases rest
    obtain ⟨key, list⟩ := member
    obtain ⟨rfl, here⟩ := here
    obtain ⟨items, none, rfl⟩ := (Json.read_list_iff noText).1 (Json.read_of_readInside noList here)
    cases none
    cases read
    rfl

end Written

/-- A schema with fields and a data section that come one after the other make the frame that they
make in one document: the data can be put into the frame of the schema just when the document can be
read, and gives the same frame. So it is with every document that is written for a frame, and with
the two parts of it. -/
theorem ofDocument_inParts :
    (∀ schema data : RawJson, schema.ListsFields → data.HoldsObject → ∀ frame : Frame,
      ofDocument (Json.objectOctets [("schema", schema.octets), ("data", data.octets)]) =
          .ok frame ↔
        ∃ shell, ofDocument (Json.objectOctets [("schema", schema.octets)]) = .ok shell ∧
          shell.replaceData (Json.objectOctets [("data", data.octets)]) = .ok frame) ∧
    ∀ source : Frame,
      (source.fields = [] ∨ ∃ rows, ∀ field ∈ source.fields, field.size = rows) →
      ∃ whole schema data, source.document .all = .ok whole ∧
        source.document .schemaOnly = .ok schema ∧ source.document .dataOnly = .ok data ∧
        ∀ frame, ofDocument whole = .ok frame ↔
          ∃ shell, ofDocument schema = .ok shell ∧ shell.replaceData data = .ok frame := by
  constructor
  · intro schema data lists object frame
    exact ofDocument_apart lists.holdsObject object
      (.inl fun content reads => fields_of_listsFields lists reads)
  · intro source even
    obtain ⟨octets, written⟩ := dataSection_isOk_iff.2 even
    obtain ⟨texts, same, sound⟩ := exists_texts_of_dataSection written
    let schema := RawJson.ofValue source.schema
    let data : RawJson := ⟨octets, same ▸ Json.syntaxFault?_object sound⟩
    have schemaObject : schema.HoldsObject :=
      holdsObject_of_octets (Json.octets_object _) (sound_texts _)
    have dataObject : data.HoldsObject := holdsObject_of_octets same sound
    have modes := document_eq_object written
    refine ⟨Json.objectOctets [("schema", schema.octets), ("data", data.octets)],
      Json.objectOctets [("schema", schema.octets)], Json.objectOctets [("data", data.octets)],
      modes .all, modes .schemaOnly, modes .dataOnly, fun frame => ?_⟩
    refine ofDocument_apart schemaObject dataObject ?_
    by_cases absent : source.fields = []
    · exact .inr fun content reads => columns_of_dataSection absent written reads
    · exact .inl fun content reads => fields_of_schema absent reads

/-- A schema with blanks in it, which leaves the kind of its numbers to the coarse type. -/
private def boilerSchema : RawJson :=
  ⟨Json.ascii "\x7b \"fields\": [\x7b\"name\": \"bar\", \"type\": \"number\"\x7d] \x7d".toList,
    by decide +kernel⟩

private def boilerData : RawJson :=
  ⟨Json.ascii "\x7b\"values\": [[12, null]], \"more\": true\x7d".toList, by decide +kernel⟩

/-- Readings of a boiler, one of them no number. -/
private def boiler : Frame :=
  { name := "boiler"
    fields := [⟨"bar", Labels.empty, none,
      ⟨⟨.float64, false⟩, ⟨[Cell.of Binary64.nan, Cell.of Binary64.zero]⟩⟩⟩] }

/-- The list of fields of an object, if it has one. -/
private def fieldList? : Json → Option (List Json)
  | .object members =>
    match members.lookup "fields" with
    | some (.list fields) => some fields
    | _ => none
  | _ => none

private theorem fieldList?_eq_some {fields : List Json} (found : fieldList? value = some fields) :
    ∃ members, value = .object members ∧ members.lookup "fields" = some (.list fields) := by
  cases value with
  | object members =>
    rw [fieldList?] at found
    split at found
    next listed =>
      cases found
      exact ⟨members, rfl, listed⟩
    · cases found
  | _ => cases found

private def isObject : Json → Bool
  | .object _ => true
  | _ => false

private theorem boilerSchema_listsFields : boilerSchema.ListsFields := by
  have lists : (boilerSchema.value.toOption.bind fieldList?).map List.isEmpty = some false := by
    decide +kernel
  intro value read
  rw [read] at lists
  obtain ⟨fields, found, some⟩ := Option.map_eq_some_iff.1 lists
  obtain ⟨members, same, listed⟩ := fieldList?_eq_some found
  cases fields with
  | nil => cases some
  | cons first rest => exact ⟨members, first, rest, same, listed⟩

private theorem boilerData_holdsObject : boilerData.HoldsObject := by
  have object : boilerData.value.toOption.map isObject = some true := by decide +kernel
  intro value read
  rw [read] at object
  cases value with
  | object members => exact ⟨members, rfl⟩
  | _ => cases object

theorem ofDocument_inParts_boiler :
    boilerSchema.ListsFields ∧ boilerData.HoldsObject ∧
      (∃ shell frame, ofDocument (Json.objectOctets
          [("schema", boilerSchema.octets), ("data", boilerData.octets)]) = .ok frame ∧
        ofDocument (Json.objectOctets [("schema", boilerSchema.octets)]) = .ok shell ∧
        shell.replaceData (Json.objectOctets [("data", boilerData.octets)]) = .ok frame ∧
        frame.columns = [⟨⟨.float64, true⟩,
          ⟨[Cell.of (⟨0x4028000000000000⟩ : Binary64), Cell.empty rfl]⟩⟩]) ∧
      ∃ whole schema data shell frame, boiler.document .all = .ok whole ∧
        boiler.document .schemaOnly = .ok schema ∧ boiler.document .dataOnly = .ok data ∧
        ofDocument whole = .ok frame ∧ ofDocument schema = .ok shell ∧
        shell.replaceData data = .ok frame ∧ frame.columns = boiler.columns := by
  obtain ⟨given, written⟩ := ofDocument_inParts
  refine ⟨boilerSchema_listsFields, boilerData_holdsObject, ?_, ?_⟩
  · have columns : (ofDocument (Json.objectOctets
        [("schema", boilerSchema.octets), ("data", boilerData.octets)])).toOption.map
          Frame.columns = some [⟨⟨.float64, true⟩,
            ⟨[Cell.of (⟨0x4028000000000000⟩ : Binary64), Cell.empty rfl]⟩⟩] := by
      decide +kernel
    obtain ⟨frame, read, same⟩ := Option.map_eq_some_iff.1 columns
    have whole := toOption_eq_some_iff.1 read
    obtain ⟨shell, shellRead, put⟩ :=
      (given _ _ boilerSchema_listsFields boilerData_holdsObject frame).1 whole
    exact ⟨shell, frame, whole, shellRead, put, same⟩
  · obtain ⟨whole, schema, data, all, schemaOnly, dataOnly, agrees⟩ :=
      written boiler (.inr ⟨2, List.forall_mem_singleton.2 rfl⟩)
    have columns : ((boiler.document .all).toOption.bind fun octets =>
        (ofDocument octets).toOption.map Frame.columns) = some boiler.columns := by
      decide +kernel
    rw [all] at columns
    obtain ⟨frame, read, same⟩ := Option.map_eq_some_iff.1 columns
    have wholeRead := toOption_eq_some_iff.1 read
    obtain ⟨shell, shellRead, put⟩ := (agrees frame).1 wholeRead
    exact ⟨whole, schema, data, shell, frame, all, schemaOnly, dataOnly, wholeRead, shellRead, put,
      same⟩

end Frame

end Columnar
