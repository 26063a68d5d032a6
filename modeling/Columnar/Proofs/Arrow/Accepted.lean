import Columnar.Proofs.Arrow.Columns
import Columnar.Proofs.Column.Calls

/-! Which record batches can be read, and what they are read as. A batch may come from anywhere: data
types, the word on missing values and the texts beside a column are independent of each other. What is
read of a column follows its data type; of the name of a type that stands beside it no more counts than
whether numbers of 16 bits are indexes. -/
namespace Columnar

namespace ArrowType

/-- The kind of field that values of a data type make up, when it is known whether numbers of 16 bits are
indexes; of the other types there are no fields. -/
def kind? (index : Bool) : ArrowType → Option Kind
  | .int8 => some .int8
  | .int16 => some .int16
  | .int32 => some .int32
  | .int64 => some .int64
  | .uint8 => some .uint8
  | .uint16 => some (if index then .enum else .uint16)
  | .uint32 => some .uint32
  | .uint64 => some .uint64
  | .float32 => some .float32
  | .float64 => some .float64
  | .utf8 | .largeUtf8 => some .string
  | .boolean => some .bool
  | .timestamp _ _ => some .time
  | .binary | .largeBinary => some .json
  | _ => none

/-- A stored value that stands for something: nanoseconds that fit 64 bits, and the octets of a document
whose syntax is sound. All others do. -/
def Sound : (type : ArrowType) → type.storage.Slot → Prop
  | .timestamp unit _, count =>
    -0x8000000000000000 ≤ Int64.toInt count * unit.nanos ∧
      Int64.toInt count * unit.nanos < 0x8000000000000000
  | .binary, octets | .largeBinary, octets => ∃ raw, RawJson.parse octets = .ok raw
  | _, _ => True

/-- The value that a stored one stands for in a field of a kind: a count the instant with exactly its
nanoseconds, octets the document that they are, and everything else itself. -/
def Says (kind : Kind) : (type : ArrowType) → type.storage.Slot → Value → Prop
  | .int8, x, value => value = .of .int8 x
  | .int16, x, value => value = .of .int16 x
  | .int32, x, value => value = .of .int32 x
  | .int64, x, value => value = .of .int64 x
  | .uint8, x, value => value = .of .uint8 x
  | .uint16, x, value => value = if kind = .enum then .of .enum x else .of .uint16 x
  | .uint32, x, value => value = .of .uint32 x
  | .uint64, x, value => value = .of .uint64 x
  | .float32, x, value => value = .of .float32 x
  | .float64, x, value => value = .of .float64 x
  | .utf8, x, value | .largeUtf8, x, value => value = .of .string x
  | .boolean, x, value => value = .of .bool x
  | .timestamp unit _, count, value => ∃ t : Instant, value = .of .time t ∧
    t.nano < nanosPerSecond ∧ t.nanos = Int64.toInt count * unit.nanos
  | .binary, octets, value | .largeBinary, octets, value =>
    ∃ raw : RawJson, value = .of .json raw ∧ raw.octets = octets
  | _, _, _ => False

/-- What stands in a row: what a sound value that is stored there says, or null. -/
def Shows (kind : Kind) (type : ArrowType) : Option type.storage.Slot → Value → Prop
  | none, value => value = .null
  | some slot, value => type.Sound slot ∧ type.Says kind slot value

end ArrowType

namespace ArrowColumn

/-- The column is said to be one of indexes, by a name that is that of a type. -/
def NamesIndex (column : ArrowColumn) : Prop :=
  ∃ name type, column.text? fieldTypeKey = some name ∧ FieldType.parse name = .ok type ∧
    type.kind = .enum

/-- A column that can be read. -/
structure Readable (column : ArrowColumn) : Prop where
  supported : (column.field.type.kind? false).isSome = true
  whole : column.field.nullable = false → none ∉ column.slots
  sound : ∀ slot, some slot ∈ column.slots → column.field.type.Sound slot
  labels : ∀ text, column.text? labelsKey = some text → ∃ labels,
    DraftReader.ofText (fun _ => Labels.read) (Octets.ofString text) = .ok labels
  config : ∀ text, column.text? configKey = some text → ∃ config,
    FieldConfig.parse (Octets.ofString text) = .ok config

/-- The field that a column is read as. The texts give its name, labels and configuration, each of which
may be absent; the data type and the word on missing values give its type. -/
structure ReadAs (column : ArrowColumn) (field : Field) : Prop where
  name : field.name = (column.text? nameKey).getD column.field.name
  labels : match column.text? labelsKey with
    | none => field.labels = Labels.empty
    | some text =>
      DraftReader.ofText (fun _ => Labels.read) (Octets.ofString text) = .ok field.labels
  config : match column.text? configKey with
    | none => field.config = none
    | some text => ∃ config, field.config = some config ∧
      FieldConfig.parse (Octets.ofString text) = .ok config
  kind : ∀ index : Bool, (index = true ↔ column.NamesIndex) →
    column.field.type.kind? index = some field.type.kind
  nullable : field.type.nullable = column.field.nullable
  cells : List.Forall₂ (column.field.type.Shows field.type.kind) column.slots field.column.values

end ArrowColumn

namespace ArrowBatch

/-- A record batch that can be read. -/
structure Readable (batch : ArrowBatch) : Prop where
  info : ∀ text, batch.metadata.lookup frameMetaKey = some text → ∃ info,
    FrameMeta.parse (Octets.ofString text) = .ok info
  columns : ∀ column ∈ batch.columns, column.Readable

/-- The frame that a record batch is read as: one field for every column, in their order. -/
structure ReadAs (batch : ArrowBatch) (frame : Frame) : Prop where
  name : frame.name = (batch.metadata.lookup nameKey).getD ""
  refId : frame.refId = (batch.metadata.lookup refIdKey).getD ""
  info : match batch.metadata.lookup frameMetaKey with
    | none => frame.info = none
    | some text => ∃ info, frame.info = some info ∧
      FrameMeta.parse (Octets.ofString text) = .ok info
  warnings : frame.warnings = []
  fields : List.Forall₂ ArrowColumn.ReadAs batch.columns frame.fields

end ArrowBatch

/-! ## Stored values one by one -/

theorem RawJson.parse_eq_ok_iff {octets : Octets} {raw : RawJson} :
    RawJson.parse octets = .ok raw ↔ raw.octets = octets := by
  constructor
  · intro parsed
    unfold RawJson.parse at parsed
    split at parsed
    · cases parsed
      rfl
    · cases parsed
  · rintro rfl
    exact raw.parse_octets

theorem readDocument_eq_ok_iff {field row : Nat} {octets : Octets} {raw : RawJson} :
    readDocument field row octets = .ok raw ↔ raw.octets = octets := by
  rw [← RawJson.parse_eq_ok_iff, readDocument]
  cases RawJson.parse octets <;> simp

/-- A count is read as the one instant with its nanoseconds, if they fit. -/
theorem readTimestamp_eq_ok_iff {unit : TimeUnit} {field row : Nat} {count : Int64} {t : Instant} :
    readTimestamp unit field row count = .ok t ↔
      (-0x8000000000000000 ≤ count.toInt * unit.nanos ∧
        count.toInt * unit.nanos < 0x8000000000000000) ∧
      t.nano < nanosPerSecond ∧ t.nanos = count.toInt * unit.nanos := by
  have given : readTimestamp unit field row count = .ok t ↔ unit.instant? count = some t := by
    rw [readTimestamp]
    cases unit.instant? count <;> simp
  rw [given, TimeUnit.instant?]
  constructor
  · intro found
    split at found
    next fits =>
      exact ⟨fits, Instant.noLeap_of_ofNanos? found, Instant.nanos_of_ofNanos? found⟩
    next => cases found
  · rintro ⟨fits, noLeap, nanos⟩
    rw [← nanos] at fits ⊢
    rw [if_pos fits, Instant.ofNanos?_nanos noLeap]

/-- Slots are read row by row, where the row does not matter to what is read. -/
theorem readSlots_eq_ok_iff {α β : Type} {read : Nat → α → Except Error β} {reads : α → β → Prop}
    (each : ∀ row slot value, read row slot = .ok value ↔ reads slot value) (row : Nat)
    {slots : List (Option α)} {contents : List (Option β)} :
    readSlots read row slots = .ok contents ↔ List.Forall₂ (Option.Rel reads) slots contents := by
  induction slots generalizing row contents with
  | nil =>
    rw [readSlots, Except.ok.injEq, List.forall₂_nil_left_iff, eq_comm]
  | cons slot rest ih =>
    rw [List.forall₂_cons_left_iff]
    cases slot with
    | none =>
      rw [readSlots, map_eq_ok_iff]
      constructor
      · rintro ⟨found, later, rfl⟩
        exact ⟨none, found, .none, (ih _).1 later, rfl⟩
      · rintro ⟨_, found, ⟨⟩, later, rfl⟩
        exact ⟨found, (ih _).2 later, rfl⟩
    | some slot =>
      rw [readSlots]
      constructor
      · intro ran
        obtain ⟨value, here, ran⟩ := bind_eq_ok_iff.1 ran
        obtain ⟨found, later, made⟩ := bind_eq_ok_iff.1 ran
        cases made
        exact ⟨some value, found, .some ((each ..).1 here), (ih _).1 later, rfl⟩
      · rintro ⟨_, found, ⟨here⟩, later, rfl⟩
        exact bind_eq_ok_iff.2 ⟨_, (each ..).2 here, bind_eq_ok_iff.2 ⟨found, (ih _).2 later, rfl⟩⟩

/-! ## Columns -/

/-- What a cell may hold, as a value. -/
def Kind.valueOf (kind : Kind) : Option kind.Element → Value
  | none => .null
  | some element => .of kind element

theorem Kind.valueOf_injective (kind : Kind) : Function.Injective kind.valueOf := by
  intro first second same
  cases first <;> cases second <;> cases same <;> rfl

theorem Cell.value_eq {type : FieldType} (cell : Cell type) :
    cell.value = type.kind.valueOf cell.content := by
  rw [Cell.value]
  cases cell.content <;> rfl

/-- Contents make up the one column of their kind that has them as its values. -/
theorem Kind.column_eq_ok_iff {kind : Kind} {nullable : Bool} {field : Nat}
    {contents : List (Option kind.Element)} {column : Column} :
    kind.column field nullable contents = .ok column ↔
      column.type = ⟨kind, nullable⟩ ∧ column.values = contents.map kind.valueOf := by
  constructor
  · intro made
    obtain ⟨cells, each, made⟩ := bind_eq_ok_iff.1 made
    cases made
    refine ⟨rfl, map_eq_of_forall₂ ?_⟩
    apply (mapM_eq_ok_iff.1 each).imp
    intro content cell here
    cases content with
    | some element =>
      cases here
      rfl
    | none =>
      dsimp only at here
      split at here <;> cases here
      rfl
  · obtain ⟨type, ⟨cells⟩⟩ := column
    rintro ⟨rfl, values⟩
    have contained : cells.map Cell.content = contents := by
      apply kind.valueOf_injective.list_map
      rw [← values, List.map_map]
      exact List.map_congr_left fun cell _ => (cell.value_eq).symm
    rw [← contained]
    exact Kind.column_contents field cells

/-- Stored values make up the column that shows what is read of them. -/
theorem Kind.column_shows_iff {α : Type} {kind : Kind} {nullable : Bool} (field : Nat)
    (reads : Option α → Option kind.Element → Prop) {shows : Option α → Value → Prop}
    (each : ∀ slot value, shows slot value ↔ ∃ content, reads slot content ∧ value = kind.valueOf content)
    {slots : List (Option α)} {column : Column} :
    (∃ contents, List.Forall₂ reads slots contents ∧
        kind.column field nullable contents = .ok column) ↔
      column.type = ⟨kind, nullable⟩ ∧ List.Forall₂ shows slots column.values := by
  have composed : shows = fun slot value =>
      ∃ content, reads slot content ∧ kind.valueOf content = value := by
    funext slot value
    simp only [each, eq_comm]
  rw [composed, forall₂_comp_iff]
  simp only [Kind.column_eq_ok_iff, ← List.forall₂_map_left_iff, List.forall₂_eq_eq_eq]
  constructor
  · rintro ⟨contents, read, typed, values⟩
    exact ⟨typed, contents, read, values.symm⟩
  · rintro ⟨typed, contents, read, values⟩
    exact ⟨contents, read, typed, values.symm⟩

/-- Contents that are shown as they are. -/
theorem Kind.column_plain_iff {kind : Kind} {nullable : Bool} {field : Nat}
    {shows : Option kind.Element → Value → Prop}
    (each : ∀ content value, shows content value ↔ value = kind.valueOf content)
    {contents : List (Option kind.Element)} {column : Column} :
    kind.column field nullable contents = .ok column ↔
      column.type = ⟨kind, nullable⟩ ∧ List.Forall₂ shows contents column.values := by
  rw [← Kind.column_shows_iff field Eq (by simpa using each),
    List.forall₂_eq_eq_eq]
  simp

/-- Contents that are read before they are shown. -/
theorem Kind.column_read_iff {α : Type} (kind : Kind) {nullable : Bool} {field : Nat}
    (read : Nat → α → Except Error kind.Element) (reads : α → kind.Element → Prop)
    {shows : Option α → Value → Prop}
    (each : ∀ row slot element, read row slot = .ok element ↔ reads slot element)
    (none : ∀ value, shows none value ↔ value = .null)
    (some : ∀ slot value, shows (some slot) value ↔
      ∃ element, value = .of kind element ∧ reads slot element)
    {slots : List (Option α)} {column : Column} :
    (readSlots read 0 slots >>= kind.column field nullable) = .ok column ↔
      column.type = ⟨kind, nullable⟩ ∧ List.Forall₂ shows slots column.values := by
  have shown : ∀ slot value, shows slot value ↔
      ∃ content, Option.Rel reads slot content ∧ value = kind.valueOf content := by
    intro slot value
    cases slot with
    | none =>
      rw [none]
      exact ⟨fun null => ⟨_, .none, null⟩, fun ⟨_, .none, null⟩ => null⟩
    | some slot =>
      rw [some]
      exact ⟨fun ⟨element, same, here⟩ => ⟨_, .some here, same⟩,
        fun ⟨_, .some here, same⟩ => ⟨_, same, here⟩⟩
  rw [← Kind.column_shows_iff field _ shown]
  simp only [← readSlots_eq_ok_iff each 0]
  exact bind_eq_ok_iff

namespace ArrowType

variable {type : ArrowType} {position : Nat} {nullable index : Bool} {column : Column} {kind : Kind}

/-- A sound count is shown as the instant that it is read as. -/
private theorem shows_timestamp (position : Nat) {unit : TimeUnit} {zone : Option String}
    {count : Int64} {value : Value} :
    (ArrowType.timestamp unit zone).Shows .time (some count) value ↔
      ∃ t : Instant, value = .of .time t ∧ readTimestamp unit position 0 count = .ok t := by
  simp only [readTimestamp_eq_ok_iff]
  constructor
  · rintro ⟨sound, t, same, exact⟩
    exact ⟨t, same, sound, exact⟩
  · rintro ⟨t, same, sound, exact⟩
    exact ⟨sound, t, same, exact⟩

/-- Octets that are a document are sound. -/
private theorem shows_octets {octets : Octets} {value : Value} :
    ((∃ raw, RawJson.parse octets = .ok raw) ∧
        ∃ raw : RawJson, value = .of .json raw ∧ raw.octets = octets) ↔
      ∃ raw : RawJson, value = .of .json raw ∧ raw.octets = octets := by
  refine and_iff_right_of_imp ?_
  rintro ⟨raw, -, same⟩
  exact ⟨raw, RawJson.parse_eq_ok_iff.2 same⟩

/-- A column is made of stored values when there are fields of their type; it shows what they say. -/
theorem column_eq_ok_iff {slots : List (Option type.storage.Slot)} :
    type.column position nullable index slots = .ok column ↔
      type.kind? index = some column.type.kind ∧ column.type.nullable = nullable ∧
        List.Forall₂ (type.Shows column.type.kind) slots column.values := by
  have made : ∀ kind, type.kind? index = some kind →
      (type.column position nullable index slots = .ok column ↔
        column.type = ⟨kind, nullable⟩ ∧ List.Forall₂ (type.Shows kind) slots column.values) := by
    intro kind known
    cases type <;> cases known
    case timestamp unit zone =>
      exact Kind.column_read_iff .time (readTimestamp unit position)
        (fun count t => readTimestamp unit position 0 count = .ok t)
        (fun _ _ _ => readTimestamp_eq_ok_iff.trans readTimestamp_eq_ok_iff.symm)
        (fun _ => Iff.rfl) fun _ _ => shows_timestamp position
    case binary | largeBinary =>
      exact Kind.column_read_iff .json (readDocument position)
        (fun octets raw => RawJson.octets raw = octets)
        (fun _ _ _ => readDocument_eq_ok_iff) (fun _ => Iff.rfl) fun _ _ => shows_octets
    case uint16 =>
      cases index <;>
      exact Kind.column_plain_iff fun content value => by
        cases content <;> simp [Shows, Sound, Says, Kind.valueOf]
    all_goals
      exact Kind.column_plain_iff fun content value => by
        cases content <;> simp [Shows, Sound, Says, Kind.valueOf]
  cases known : type.kind? index with
  | none =>
    have refused : type.column position nullable index slots =
        .error (.unsupportedArrowType type.name) := by
      cases type <;> first | rfl | cases known
    simp [refused]
  | some kind =>
    rw [made kind known]
    constructor
    · rintro ⟨typed, shown⟩
      rw [typed]
      exact ⟨rfl, rfl, shown⟩
    · rintro ⟨same, rfl, shown⟩
      cases same
      exact ⟨rfl, shown⟩

end ArrowType

namespace ArrowColumn

variable {column : ArrowColumn} {position : Nat} {field : Field}

theorem isIndex_iff : column.isIndex = true ↔ column.NamesIndex := by
  rw [isIndex, NamesIndex]
  cases column.text? fieldTypeKey with
  | none => simp
  | some name =>
    cases parsed : FieldType.parse name <;> simp [parsed]

/-- What a field shows of a column is what is made of its stored values. -/
theorem ReadAs.column_eq (readAs : column.ReadAs field) (position : Nat) :
    column.field.type.column position column.field.nullable column.isIndex column.slots =
      .ok field.column :=
  ArrowType.column_eq_ok_iff.2
    ⟨readAs.kind column.isIndex isIndex_iff, readAs.nullable, readAs.cells⟩

end ArrowColumn

end Columnar
