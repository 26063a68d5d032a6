import Columnar.Arrow.Packing
import Columnar.Proofs.Arrow.Columns
import Columnar.Proofs.Document.Contents
import Columnar.Proofs.Json.Texts
import Columnar.Proofs.Pivot.Rows

/-! Frames as record batches and back. A column keeps the cells of its field, and the texts of the
schema keep the rest, so that nothing but the warnings of a frame is lost. -/
namespace Columnar

open DraftReader

section Texts

/-- A key that no further text has keeps what stands under it. -/
private theorem lookup_texts_of_not_mem {texts : List (String × Option String)} {asked : String}
    (absent : asked ∉ texts.map Prod.fst) (pairs : List (String × String)) :
    (texts.foldl (fun pairs (key, text) =>
      match text with
      | some text => Keyed.insert key text pairs
      | none => pairs) pairs).lookup asked = pairs.lookup asked := by
  induction texts generalizing pairs with
  | nil => rfl
  | cons first rest ih =>
    obtain ⟨key, text⟩ := first
    rw [List.map_cons, List.mem_cons, not_or] at absent
    rw [List.foldl_cons, ih absent.2]
    cases text with
    | none => rfl
    | some text =>
      dsimp only
      rw [Keyed.lookup_insert, if_neg absent.1]

private theorem lookup_texts {texts : List (String × Option String)}
    (distinct : (texts.map Prod.fst).Nodup) {asked : String} {text : Option String}
    (member : (asked, text) ∈ texts) {pairs : List (String × String)}
    (fresh : ∀ key ∈ texts.map Prod.fst, pairs.lookup key = none) :
    (texts.foldl (fun pairs (key, text) =>
      match text with
      | some text => Keyed.insert key text pairs
      | none => pairs) pairs).lookup asked = text := by
  induction texts generalizing pairs with
  | nil => cases member
  | cons first rest ih =>
    obtain ⟨key, found⟩ := first
    obtain ⟨once, distinct⟩ := List.nodup_cons.1 distinct
    rw [List.foldl_cons]
    rcases List.mem_cons.1 member with same | member
    · cases same
      rw [lookup_texts_of_not_mem once]
      cases text with
      | none => exact fresh asked (by simp)
      | some text =>
        dsimp only
        rw [Keyed.lookup_insert, if_pos rfl]
    · apply ih distinct member
      intro other inRest
      have unset := fresh other (by simp [List.mem_map.1 inRest])
      have differ : other ≠ key := fun same => once (same ▸ inRest)
      cases found with
      | none => exact unset
      | some found =>
        dsimp only
        rw [Keyed.lookup_insert, if_neg differ, unset]

/-- Every text is found under its key. -/
theorem lookup_metadataOf {texts : List (String × Option String)}
    (distinct : (texts.map Prod.fst).Nodup) {asked : String} {text : Option String}
    (member : (asked, text) ∈ texts) : (metadataOf texts).lookup asked = text :=
  lookup_texts distinct member fun _ _ => rfl

end Texts

/-- Labels are read from their text. -/
theorem Labels.legible (labels : Labels) : labels.toJson.Legible := by
  have flat : ∀ pairs : List (String × String),
      Json.memberDepth (pairs.map fun pair => (pair.1, .string pair.2)) = 0 ∧
        Json.memberNumbers (pairs.map fun pair => (pair.1, .string pair.2)) = [] := by
    intro pairs
    induction pairs with
    | nil => exact ⟨rfl, rfl⟩
    | cons pair rest ih => simp [Json.memberDepth, Json.memberNumbers, ih, Json.depth, Json.numbers]
  obtain ⟨depth, numbers⟩ := flat labels.pairs
  have text : labels.toJson = .object (labels.pairs.map fun pair => (pair.1, .string pair.2)) := rfl
  constructor
  · rw [text, Json.depth, depth]
    decide
  · rw [text, Json.numbers, numbers]
    exact List.forall_mem_nil _

namespace Field

/-- A field that a column can keep: its times can be stored, and its configuration can be written
and is read as it was written. -/
structure Storable (field : Field) : Prop where
  times : ∀ t, Value.of .time t ∈ field.column.values → t.Storable
  config : ∀ config ∈ field.config, config.Expressible ∧ config.toJson.Legible

variable {field : Field}

private theorem text?_eq (field : Field) (slots : List (Option field.arrowField.type.storage.Slot))
    {key : String} {text : Option String}
    (member : (key, text) ∈ [(nameKey, some field.name), (fieldTypeKey, some field.type.name),
      (labelsKey, if field.labels.isEmpty then none else some field.labels.toJson.text),
      (configKey, field.config.map fun config => config.toJson.text)]) :
    ArrowColumn.text? ⟨field.arrowField, slots⟩ key = text :=
  lookup_metadataOf (by simp [nameKey, fieldTypeKey, labelsKey, configKey]) member

/-- Labels are left out when there are none, and read from their text otherwise. -/
private theorem labels_read (position : Nat) {column : ArrowColumn} {labels : Labels}
    (written : column.text? labelsKey =
      if labels.isEmpty then none else some labels.toJson.text) :
    column.labels position = .ok labels := by
  rw [ArrowColumn.labels, written]
  by_cases none : labels.isEmpty = true
  · rw [if_pos none, Labels.eq_empty none]
  · rw [if_neg none]
    dsimp only
    have read : ofText (fun _ => Labels.read) labels.toJson.octets = .ok labels :=
      ofText_of_gives labels.read_gives labels.legible
    rw [Json.ofString_text, read]
    rfl

/-- The configuration is read as what is left of it. -/
private theorem config_read (position : Nat) {column : ArrowColumn} {config : Option FieldConfig}
    (written : column.text? configKey = config.map fun config => config.toJson.text)
    (legible : ∀ found ∈ config, found.toJson.Legible) :
    column.config position = .ok (config.map FieldConfig.afterText) := by
  rw [ArrowColumn.config, written]
  cases config with
  | none => rfl
  | some config =>
    rw [Option.map_some]
    dsimp only
    rw [Json.ofString_text, FieldConfig.parse,
      ofText_of_gives (config.read_gives_afterText .text) (legible config rfl)]
    rfl

/-- A column with the texts of a field is read as what is left of the field, with the cells that the
stored values stand for. -/
theorem toField_slots (legible : ∀ config ∈ field.config, config.toJson.Legible) (position : Nat)
    {slots : List (Option field.arrowField.type.storage.Slot)} {cells : Column}
    (read : field.type.kind.arrowType.column position field.type.nullable
      (field.type.kind == .enum) slots = .ok cells) :
    ArrowColumn.toField position ⟨field.arrowField, slots⟩ =
      .ok (field.afterText.withColumn cells) := by
  have name := text?_eq field slots (.head _)
  have type := text?_eq field slots (.tail _ (.head _))
  have labels := text?_eq field slots (.tail _ (.tail _ (.head _)))
  have config := text?_eq field slots (.tail _ (.tail _ (.tail _ (.head _))))
  have index : ArrowColumn.isIndex ⟨field.arrowField, slots⟩ = (field.type.kind == .enum) := by
    rw [ArrowColumn.isIndex, type]
    dsimp only
    rw [FieldType.parse_name]
  have found : field.arrowField.type.column position field.arrowField.nullable
      (ArrowColumn.isIndex ⟨field.arrowField, slots⟩) slots = .ok cells := by
    rw [index]
    exact read
  refine bind_eq_ok_iff.2 ⟨cells, found, bind_eq_ok_iff.2 ⟨field.labels,
    labels_read position labels, bind_eq_ok_iff.2 ⟨_, config_read position config legible, ?_⟩⟩⟩
  rw [name]
  rfl

/-- The column of a field is read as the field. -/
theorem toField_stored (storable : field.Storable) (position : Nat) :
    ∃ slots, Cell.toSlots position 0 field.column.cells.toList = .ok slots ∧
      ArrowColumn.toField position ⟨field.arrowField, slots⟩ = .ok field := by
  obtain ⟨slots, stored, read⟩ := field.column.read_stored position storable.times
  refine ⟨slots, stored, ?_⟩
  rw [toField_slots (fun config present => (storable.config config present).2) position read,
    afterText_of_expressible fun config present => (storable.config config present).1]
  rfl

/-- The columns of fields are read as the fields. -/
theorem toFields_stored {fields : List Field} (storable : ∀ field ∈ fields, field.Storable)
    (position : Nat) :
    ∃ columns, Frame.arrowColumns position fields = .ok columns ∧
      ArrowColumn.toFields position columns = .ok fields := by
  induction fields generalizing position with
  | nil => exact ⟨[], rfl, rfl⟩
  | cons field rest ih =>
    obtain ⟨slots, stored, read⟩ := toField_stored (storable field (by simp)) position
    obtain ⟨columns, later, readLater⟩ :=
      ih (fun other member => storable other (by simp [member])) (position + 1)
    refine ⟨⟨field.arrowField, slots⟩ :: columns, ?_, ?_⟩
    · exact bind_eq_ok_iff.2 ⟨slots, stored, bind_eq_ok_iff.2 ⟨columns, later, rfl⟩⟩
    · exact bind_eq_ok_iff.2 ⟨field, read, bind_eq_ok_iff.2 ⟨rest, readLater, rfl⟩⟩

end Field

/-- The writer and the reader of octets return the batch as it was. -/
def ArrowBatch.Transported (batch : ArrowBatch) (layout : ArrowLayout) : Prop :=
  ∃ octets table, batch.write layout = some octets ∧ ArrowTable.read octets = .ok table ∧
    table.batch = batch

namespace Frame

/-- A frame that a record batch can keep: its fields are of one length, and each of them and the
metadata can be kept. -/
structure Storable (frame : Frame) : Prop where
  even : ∃ rows, ∀ field ∈ frame.fields, field.size = rows
  fields : ∀ field ∈ frame.fields, field.Storable
  info : ∀ info ∈ frame.info, info.Expressible ∧ info.toJson.Legible

variable {frame : Frame}

private theorem rows_counted (even : ∃ rows, ∀ field ∈ frame.fields, field.size = rows) :
    ∃ rows, frame.arrowRows = .ok rows := by
  obtain ⟨rows, even⟩ := even
  by_cases none : frame.fields.isEmpty = true
  · exact ⟨0, if_pos none⟩
  · refine ⟨rows, ?_⟩
    rw [arrowRows, if_neg none, rowCount_eq_ok_iff]
    exact ⟨by simpa using none, even⟩

/-- Metadata are read as what is left of them, when the figures are numbers. -/
theorem info_read_afterText {batch : ArrowBatch} {info : Option FrameMeta}
    (written : batch.metadata.lookup frameMetaKey = info.map fun info => info.toJson.text)
    (legible : ∀ found ∈ info, found.toJson.Legible)
    (finite : ∀ found ∈ info, found.FiguresFinite) :
    batch.info = .ok (info.map FrameMeta.afterText) := by
  rw [ArrowBatch.info, written]
  cases info with
  | none => rfl
  | some info =>
    rw [Option.map_some]
    dsimp only
    rw [Json.ofString_text, FrameMeta.parse,
      ofText_of_gives (FrameMeta.read_gives_afterText .text (finite info rfl)) (legible info rfl)]
    rfl

private theorem info_read {batch : ArrowBatch} {info : Option FrameMeta}
    (written : batch.metadata.lookup frameMetaKey = info.map fun info => info.toJson.text)
    (legible : ∀ found ∈ info, found.Expressible ∧ found.toJson.Legible) :
    batch.info = .ok info := by
  rw [info_read_afterText written (fun found present => (legible found present).2)
    fun found present => (legible found present).1.stats]
  cases info with
  | none => rfl
  | some info =>
    rw [Option.map_some, FrameMeta.afterText_of_expressible (legible info rfl).1]

/-- Metadata with a figure that is not finite are refused. -/
theorem info_refused {batch : ArrowBatch} {info : FrameMeta}
    (written : batch.metadata.lookup frameMetaKey = some info.toJson.text)
    (legible : info.toJson.Legible) (stray : ¬info.FiguresFinite) (result : Option FrameMeta) :
    batch.info ≠ .ok result := by
  rw [ArrowBatch.info, written]
  dsimp only
  rw [Json.ofString_text]
  intro read
  obtain ⟨found, parsed, -⟩ := map_eq_ok_iff.1 (mapError_eq_ok_iff.1 read)
  exact ofText_of_refuses (FrameMeta.read_refuses .text stray) legible found parsed

theorem lookup_arrowMetadata {key : String} {text : Option String}
    (member : (key, text) ∈ [(nameKey, some frame.name), (refIdKey, some frame.refId),
      (frameMetaKey, frame.info.map fun info => info.toJson.text)]) :
    frame.arrowMetadata.lookup key = text :=
  lookup_metadataOf (by simp [nameKey, refIdKey, frameMetaKey]) member

/-- A frame is read from its record batch as it was, without its warnings, and so it is from the
octets of the batch when these are written and read without loss. -/
theorem ofArrow_toArrow (storable : frame.Storable) :
    ∃ batch, frame.toArrow = .ok batch ∧ ofArrow batch = .ok { frame with warnings := [] } ∧
      ∀ layout, batch.Transported layout → ∃ octets, frame.toArrowOctets layout = .ok octets ∧
        ofArrowOctets octets = .ok { frame with warnings := [] } := by
  obtain ⟨rows, counted⟩ := rows_counted storable.even
  obtain ⟨columns, written, read⟩ := Field.toFields_stored storable.fields 0
  let batch : ArrowBatch := { metadata := frame.arrowMetadata, rows, columns }
  have made : frame.toArrow = .ok batch :=
    bind_eq_ok_iff.2 ⟨rows, counted, bind_eq_ok_iff.2 ⟨columns, written, rfl⟩⟩
  have again : ofArrow batch = .ok { frame with warnings := [] } := by
    have info : batch.info = .ok frame.info :=
      info_read (lookup_arrowMetadata (.tail _ (.tail _ (.head _)))) storable.info
    refine bind_eq_ok_iff.2 ⟨frame.info, info, bind_eq_ok_iff.2 ⟨frame.fields, read, ?_⟩⟩
    rw [lookup_arrowMetadata (.head _), lookup_arrowMetadata (.tail _ (.head _))]
    rfl
  refine ⟨batch, made, again, fun layout transported => ?_⟩
  obtain ⟨octets, table, packed, unpacked, same⟩ := transported
  refine ⟨octets, bind_eq_ok_iff.2 ⟨batch, made, ?_⟩, bind_eq_ok_iff.2 ⟨table, ?_, ?_⟩⟩
  · rw [packed]
    rfl
  · rw [unpacked]
    rfl
  · rw [same, again]

/-- A log of a device: times before 1970, indexes next to numbers stored like them, a float that is
no number, and documents that are kept although their numbers are out of range. -/
def deviceLog : Frame :=
  let early : Instant := (Instant.ofParts? (-1) 999999999).getD Instant.epoch
  let late : Instant := (Instant.ofParts? 60 0).getD Instant.epoch
  let half : Binary64 := ⟨0x3FE0000000000000⟩
  let huge : RawJson := ⟨Json.ascii "[1e999, 1 ]".toList, by decide +kernel⟩
  { name := "log"
    refId := "A"
    fields :=
      [⟨"at", Labels.empty, none, ⟨⟨.time, true⟩, ⟨[Cell.of early, Cell.empty rfl, Cell.of late]⟩⟩⟩,
        ⟨"state", Labels.empty,
          some (FieldConfig.withEnumText { decimals := some 2, min := some half } ["off", "on"]),
          ⟨⟨.enum, false⟩, ⟨[Cell.of (1 : UInt16), Cell.of (0 : UInt16), Cell.of (1 : UInt16)]⟩⟩⟩,
        ⟨"code", Labels.ofPairs [("host", "a")], none,
          ⟨⟨.uint16, true⟩, ⟨[Cell.of (1 : UInt16), Cell.empty rfl, Cell.of (7 : UInt16)]⟩⟩⟩,
        ⟨"level", Labels.ofPairs [("host", "a")], none,
          ⟨⟨.float64, false⟩, ⟨[Cell.of Binary64.nan, Cell.of half, Cell.of half]⟩⟩⟩,
        ⟨"source", Labels.empty, none,
          ⟨⟨.json, false⟩, ⟨[Cell.of huge, Cell.of huge, Cell.of RawJson.null]⟩⟩⟩]
    info := some
      { stats := [{ displayName := "load", value := half }]
        custom := some
          ⟨.list [.bool true, .string "x"], by simp [Json.Ordered, Json.ItemsOrdered]⟩ }
    warnings := [⟨"late", none⟩] }

/-- A field without times and without a configuration can always be kept. -/
private theorem storable_of_plain {field : Field} (noTimes : field.type.kind ≠ .time)
    (bare : field.config = none) : field.Storable := by
  refine ⟨field.column.storable_of_ne_time noTimes, ?_⟩
  rw [bare]
  rintro _ ⟨⟩

private theorem deviceLog_storable : deviceLog.Storable := by
  have half : (JsonNumber.real ⟨0x3FE0000000000000⟩ (by decide +kernel)).ReadsBack := by
    decide +kernel
  constructor
  · exact ⟨3, by decide⟩
  · simp only [deviceLog, List.forall_mem_cons]
    refine ⟨?_, ?_, storable_of_plain (by decide) rfl, storable_of_plain (by decide) rfl,
      storable_of_plain (by decide) rfl, List.forall_mem_nil _⟩
    · constructor
      · intro t member
        simp [Column.values, Cells.values, Cell.value, Cell.of, Cell.empty] at member
        rcases member with rfl | rfl <;> constructor <;> decide
      · simp
    · constructor
      · simp [Column.values, Cells.values, Cell.value, Cell.of]
      · rintro _ ⟨⟩
        refine ⟨?_, by decide, ?_⟩
        · constructor <;> rintro _ ⟨⟩
          decide +kernel
        · intro number member
          have listed : number ∈ [.whole 2 (by decide),
              .real ⟨0x3FE0000000000000⟩ (by decide +kernel)] := member
          rcases List.mem_cons.1 listed with rfl | listed
          · exact JsonNumber.readsBack_whole _
          · rcases List.mem_singleton.1 listed with rfl
            exact half
  · rintro _ ⟨⟩
    refine ⟨?_, by decide, ?_⟩
    · constructor
      · intro stat member
        rcases List.mem_singleton.1 member with rfl
        decide +kernel
      · rintro _ ⟨⟩
        intro null
        cases null
    · intro number member
      have listed : number ∈ [.real ⟨0x3FE0000000000000⟩ (by decide +kernel)] := member
      rcases List.mem_singleton.1 listed with rfl
      exact half

/-- A device with a code that was missing once. -/
def codeLog : Frame :=
  { name := "log"
    fields :=
      [⟨"n", Labels.empty, none, ⟨⟨.uint16, true⟩, ⟨[Cell.of (7 : UInt16), Cell.empty rfl]⟩⟩⟩] }

/-- What there is to compare of a column of such codes. -/
private structure CodeColumn where
  name : String
  nullable : Bool
  dictionaryId : Int
  ordered : Bool
  metadata : List (String × String)
  slots : List (Option UInt16)
deriving DecidableEq

private def codes? : ArrowColumn → Option CodeColumn
  | ⟨⟨name, .uint16, nullable, dictionaryId, ordered, metadata⟩, slots⟩ =>
    some ⟨name, nullable, dictionaryId, ordered, metadata, slots⟩
  | _ => none

private theorem eq_of_codes? {column other : ArrowColumn} {codes : CodeColumn}
    (here : codes? column = some codes) (there : codes? other = some codes) : other = column := by
  unfold codes? at here there
  split at here
  · split at there
    · cases here
      cases there
      rfl
    · cases there
  · cases here

/-- Columns of codes are known by their parts. -/
private theorem eq_of_codes {columns others : List ArrowColumn}
    (codes : ∀ column ∈ columns, (codes? column).isSome = true)
    (same : others.map codes? = columns.map codes?) : others = columns := by
  induction columns generalizing others with
  | nil => exact List.map_eq_nil_iff.1 same
  | cons column rest ih =>
    obtain ⟨other, later, rfl, first, tail⟩ := List.map_eq_cons_iff.1 same
    obtain ⟨parts, here⟩ := Option.isSome_iff_exists.1 (codes column (by simp))
    rw [eq_of_codes? here (first.trans here),
      ih (fun column member => codes column (by simp [member])) tail]

/-- The octets of the codes return their batch. -/
private theorem codeLog_transported {batch : ArrowBatch} (made : codeLog.toArrow = .ok batch) :
    batch.Transported .stream := by
  have codes : codeLog.toArrow.toOption.map (fun batch =>
      batch.columns.all fun column => (codes? column).isSome) = some true := by
    decide +kernel
  have read : (codeLog.toArrow.toOption.bind fun batch => (batch.write .stream).bind fun octets =>
      (ArrowTable.read octets).toOption.map fun table =>
        decide (table.batch.metadata = batch.metadata ∧ table.batch.rows = batch.rows ∧
          table.batch.columns.map codes? = batch.columns.map codes?)) = some true := by
    decide +kernel
  rw [made] at codes
  have columns : ∀ column ∈ batch.columns, (codes? column).isSome = true :=
    List.all_eq_true.1 (Option.some.inj codes)
  obtain ⟨other, also, read⟩ := Option.bind_eq_some_iff.1 read
  cases made.symm.trans (toOption_eq_some_iff.1 also)
  obtain ⟨octets, written, read⟩ := Option.bind_eq_some_iff.1 read
  obtain ⟨table, found, same⟩ := Option.map_eq_some_iff.1 read
  obtain ⟨metadata, rows, parts⟩ := of_decide_eq_true same
  refine ⟨octets, table, written, toOption_eq_some_iff.1 found, ?_⟩
  have restored := eq_of_codes columns parts
  calc table.batch = ⟨table.batch.metadata, table.batch.rows, table.batch.columns⟩ := rfl
    _ = ⟨batch.metadata, batch.rows, batch.columns⟩ := by rw [metadata, rows, restored]

theorem ofArrow_deviceLog :
    (deviceLog.Storable ∧ ∃ batch, deviceLog.toArrow = .ok batch ∧
      ofArrow batch = .ok { deviceLog with warnings := [] }) ∧
    codeLog.Storable ∧ ∃ batch octets, codeLog.toArrow = .ok batch ∧ batch.Transported .stream ∧
      codeLog.toArrowOctets .stream = .ok octets ∧ ofArrowOctets octets = .ok codeLog := by
  constructor
  · obtain ⟨batch, made, again, -⟩ := ofArrow_toArrow deviceLog_storable
    exact ⟨deviceLog_storable, batch, made, again⟩
  · have storable : codeLog.Storable := by
      refine ⟨⟨2, by decide⟩, ?_, by rintro _ ⟨⟩⟩
      rw [codeLog, List.forall_mem_singleton]
      exact storable_of_plain (by decide) rfl
    obtain ⟨batch, made, -, carried⟩ := ofArrow_toArrow storable
    have transported := codeLog_transported made
    obtain ⟨octets, packed, unpacked⟩ := carried .stream transported
    exact ⟨storable, batch, octets, made, transported, packed, unpacked⟩

end Frame

end Columnar
