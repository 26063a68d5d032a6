import Columnar.Proofs.Arrow.RoundTrip
import Columnar.Proofs.Document.Canonical

/-! Documents of frames that have gone through record batches. A batch keeps times as counts of
nanoseconds, in which a leap second counts on into the next one, and a document has milliseconds, in
which it does so too: what a batch changes is nothing that a document says. -/
namespace Columnar

namespace Instant

variable {t : Instant}

/-- The time that the count of nanoseconds stands for. -/
def counted (t : Instant) : Instant := (ofNanos? t.nanos).getD t

theorem nanos_counted (t : Instant) : t.counted.nanos = t.nanos := by
  rw [counted]
  cases found : ofNanos? t.nanos with
  | none => rfl
  | some other => exact nanos_of_ofNanos? found

theorem millis_counted (t : Instant) : t.counted.millis = t.millis := by
  rw [millis_eq_nanos_div, nanos_counted, millis_eq_nanos_div]

/-- What a count that fits stands for can be stored. -/
theorem storable_counted (fits : t.nanos?.isSome) : t.counted.Storable := by
  have bounds : -0x8000000000000000 ≤ t.nanos ∧ t.nanos < 0x8000000000000000 := by
    by_contra outside
    rw [nanos?, if_neg outside] at fits
    cases fits
  obtain ⟨other, found⟩ := exists_ofNanos? bounds.1 bounds.2
  have noLeap : t.counted.nano < nanosPerSecond := by
    rw [counted, found]
    exact noLeap_of_ofNanos? found
  exact ⟨noLeap, by rw [nanos_counted]; exact bounds.1, by rw [nanos_counted]; exact bounds.2⟩

end Instant

namespace Kind

/-- An element can be counted unless it is a time whose nanoseconds do not fit 64 bits. -/
def Countable : (kind : Kind) → kind.Element → Prop
  | time, t => (Instant.nanos? t).isSome
  | _, _ => True

/-- The element without leap seconds: the time that the nanoseconds stand for. -/
def counted : (kind : Kind) → kind.Element → kind.Element
  | time, t => Instant.counted t
  | _, x => x

variable {kind : Kind}

theorem document_counted (x : kind.Element) : kind.document (kind.counted x) = kind.document x := by
  cases kind with
  | time => exact congrArg (fun millis => Json.ascii (integerChars millis)) (Instant.millis_counted x)
  | _ => rfl

theorem special?_counted (x : kind.Element) : kind.special? (kind.counted x) = kind.special? x := by
  cases kind <;> rfl

/-- What is stored of an element is what is stored of the counted one. -/
theorem toSlot_counted {x : kind.Element} (countable : kind.Countable x) (field row : Nat) :
    kind.toSlot field row (kind.counted x) = kind.toSlot field row x := by
  cases kind with
  | time =>
    have count : Instant.nanos? (Instant.counted x) = Instant.nanos? x := by
      rw [Instant.nanos?, Instant.nanos?, Instant.nanos_counted]
    obtain ⟨nanos, fits⟩ := Option.isSome_iff_exists.1 countable
    rw [counted, toSlot, toSlot, count, fits]
  | _ => rfl

end Kind

namespace Cell

variable {type : FieldType}

/-- The cell without leap seconds, as it is counted. -/
def counted (cell : Cell type) : Cell type where
  content := cell.content.map type.kind.counted
  present required := by
    rw [Option.isSome_map]
    exact cell.present required

theorem alike_counted (cell : Cell type) : cell.counted.Alike cell :=
  alike_of_content rfl Kind.document_counted Kind.special?_counted

theorem toSlots_counted {cells : List (Cell type)}
    (countable : ∀ cell ∈ cells, ∀ x ∈ cell.content, type.kind.Countable x) (field row : Nat) :
    toSlots field row (cells.map counted) = toSlots field row cells := by
  induction cells generalizing row with
  | nil => rfl
  | cons cell rest ih =>
    rw [List.forall_mem_cons] at countable
    rw [List.map_cons, toSlots, toSlots, ih countable.2]
    obtain ⟨content, present⟩ := cell
    cases content with
    | none => rfl
    | some x =>
      have here := Kind.toSlot_counted (countable.1 x rfl) field row
      simp only [counted, Option.map_some, here]

end Cell

namespace Column

/-- Every time of the column has a count of nanoseconds that fits 64 bits. -/
def Countable (column : Column) : Prop :=
  ∀ cell ∈ column.cells.toList, ∀ x ∈ cell.content, column.type.kind.Countable x

variable {column : Column}

theorem countable_of_times
    (times : ∀ t, Value.of .time t ∈ column.values → (Instant.nanos? t).isSome) :
    column.Countable := by
  obtain ⟨⟨kind, nullable⟩, ⟨cells⟩⟩ := column
  intro cell member x held
  cases kind with
  | time =>
    refine times x (List.mem_map.2 ⟨cell, member, ?_⟩)
    rw [Cell.value, held]
  | _ => trivial

/-- The times of a counted column can be stored. -/
theorem storable_counted (countable : column.Countable) {t : Instant}
    (member : Value.of .time t ∈ (column.mapCells fun _ => Cell.counted).values) : t.Storable := by
  obtain ⟨⟨kind, nullable⟩, ⟨cells⟩⟩ := column
  obtain ⟨cell, listed, value⟩ := List.mem_map.1 member
  obtain ⟨⟨content, present⟩, inside, rfl⟩ := List.mem_map.1 listed
  cases content with
  | none => cases value
  | some x =>
    cases value
    exact Instant.storable_counted (countable _ inside x rfl)

end Column

namespace Frame

variable {frame : Frame}

/-- The frame without leap seconds, as its times are counted. -/
def counted (frame : Frame) : Frame := frame.mapCells fun _ => Cell.counted

/-- Every time of the frame has a count of nanoseconds that fits 64 bits. -/
def Countable (frame : Frame) : Prop :=
  ∀ field ∈ frame.fields, ∀ t, Value.of .time t ∈ field.column.values → (Instant.nanos? t).isSome

/-- Counting the times changes nothing that a document says. -/
theorem document_counted (frame : Frame) (parts : FrameParts) :
    frame.counted.document parts = frame.document parts :=
  document_mapCells (fun _ _ cell _ => cell.alike_counted) parts

private theorem arrowColumns_counted {fields : List Field}
    (countable : ∀ field ∈ fields, field.column.Countable) (position : Nat) :
    arrowColumns position (fields.map fun field =>
        field.withColumn (field.column.mapCells fun _ => Cell.counted)) =
      arrowColumns position fields := by
  induction fields generalizing position with
  | nil => rfl
  | cons field rest ih =>
    rw [List.forall_mem_cons] at countable
    have slots := Cell.toSlots_counted countable.1 position 0
    rw [List.map_cons, arrowColumns, arrowColumns, ih countable.2]
    exact congrArg (fun slots => slots >>= fun slots => arrowColumns (position + 1) rest >>=
      fun rest => Except.ok (⟨field.arrowField, slots⟩ :: rest)) slots

/-- A frame and the one in which its times are counted have one record batch. -/
theorem toArrow_counted (countable : frame.Countable) : frame.counted.toArrow = frame.toArrow := by
  have columns : arrowColumns 0 frame.counted.fields = arrowColumns 0 frame.fields :=
    arrowColumns_counted (fun field member => Column.countable_of_times (countable field member)) 0
  have rows : frame.counted.arrowRows = frame.arrowRows := by
    rw [arrowRows, arrowRows, counted, isEmpty_mapCells, rowCount_mapCells]
  rw [toArrow, toArrow, rows, columns]
  rfl

section Numbers

variable {number : JsonNumber}

/-- The numbers of metadata are written into the schema. -/
theorem mem_numbers_of_info {info : FrameMeta} (present : frame.info = some info)
    (inside : number ∈ info.toJson.numbers) : number ∈ frame.schema.numbers := by
  rw [schema, Json.numbers, Json.mem_memberNumbers]
  exact ⟨("meta", info.toJson), by simp [present, Json.optionalMember], inside⟩

/-- The numbers of a configuration are written into the schema. -/
theorem mem_numbers_of_config {field : Field} (member : field ∈ frame.fields)
    {config : FieldConfig} (present : field.config = some config)
    (inside : number ∈ config.toJson.numbers) : number ∈ frame.schema.numbers := by
  have described : number ∈ field.description.numbers := by
    rw [Field.description, Json.numbers, Json.mem_memberNumbers]
    exact ⟨("config", config.toJson), by simp [present, Json.optionalMember], inside⟩
  have listed : number ∈ (Json.list (frame.fields.map Field.description)).numbers := by
    rw [Json.numbers, Json.mem_itemNumbers]
    exact ⟨field.description, List.mem_map_of_mem member, described⟩
  rw [schema, Json.numbers, Json.mem_memberNumbers]
  exact ⟨("fields", .list (frame.fields.map Field.description)), by simp, listed⟩

end Numbers

/-- A frame that has been read can be kept by a record batch once its times are counted. -/
theorem storable_counted {width : Nat} (decoded : frame.Decoded width (Draft.depthLimit - 5))
    (countable : frame.Countable) (numbers : ∀ number ∈ frame.schema.numbers, number.ReadsBack) :
    frame.counted.Storable := by
  obtain ⟨rows, -, even⟩ := decoded.even
  refine ⟨⟨rows, fun field member => ?_⟩, fun field member => ?_, fun info present => ?_⟩
  · obtain ⟨source, listed, rfl⟩ := List.mem_map.1 member
    exact Column.size_mapCells.trans (even source.column (List.mem_map_of_mem listed))
  · obtain ⟨source, listed, rfl⟩ := List.mem_map.1 member
    refine ⟨fun t inside => ?_, fun config present => ?_⟩
    · exact Column.storable_counted (Column.countable_of_times (countable source listed)) inside
    · have accepted := decoded.configs source listed config present
      have shallow := accepted.depth_toJson (by decide)
      exact ⟨accepted.toExpressible, Nat.le_trans shallow (by decide),
        fun number inside => numbers number (mem_numbers_of_config listed present inside)⟩
  · have accepted := decoded.info info present
    have shallow := accepted.depth_toJson (by decide)
    exact ⟨accepted.toExpressible, Nat.le_trans shallow (by decide),
      fun number inside => numbers number (mem_numbers_of_info present inside)⟩

/-- A document that is read and goes through a record batch is written as it is without the detour.
Times must have counts of nanoseconds that fit 64 bits; of the reader of numbers it is assumed that it
returns those that are written into the schema, those in cells being kept as they are. -/
theorem document_ofArrow_toArrow {octets : Octets} (read : ofDocument octets = .ok frame)
    (countable : frame.Countable) (numbers : ∀ number ∈ frame.schema.numbers, number.ReadsBack) :
    ∃ batch again, frame.toArrow = .ok batch ∧ ofArrow batch = .ok again ∧
      (∀ parts, ∃ text, frame.document parts = .ok text ∧ again.document parts = .ok text) ∧
      ∀ layout, batch.Transported layout → ∃ stored, frame.toArrowOctets layout = .ok stored ∧
        ofArrowOctets stored = .ok again := by
  have decoded := ofDocument_decoded read
  obtain ⟨batch, made, again, carried⟩ :=
    ofArrow_toArrow (storable_counted decoded countable numbers)
  have same : frame.counted.toArrow = frame.toArrow := toArrow_counted countable
  refine ⟨batch, frame.counted, same ▸ made, again, fun parts => ?_, fun layout transported => ?_⟩
  · obtain ⟨rows, -, even⟩ := decoded.even
    obtain ⟨text, written⟩ := exists_document even parts
    exact ⟨text, written, (document_counted frame parts).trans written⟩
  · obtain ⟨stored, packed, unpacked⟩ := carried layout transported
    refine ⟨stored, ?_, unpacked⟩
    rw [toArrowOctets, ← same]
    exact packed

/-- A document of a clock: half a leap second, a time of nanoseconds before 1970, a configuration, and
cells that are documents. -/
private def clockReadings : Octets :=
  ["\x7b\"schema\":\x7b\"fields\":[\x7b\"name\":\"at\",\"type\":\"time\",",
    "\"config\":\x7b\"decimals\":2\x7d\x7d,", "\x7b\"typeInfo\":\x7b\"frame\":\"json\"\x7d\x7d]\x7d,",
    "\"data\":\x7b\"fields\":[[\"1970-01-01T00:00:60.5Z\",\"1969-12-31T23:59:59.000000001Z\"],",
    "[[1, 2],null]]\x7d\x7d"].flatMap fun piece => Json.ascii piece.toList

private def clockTimes : List Instant :=
  [(Instant.ofParts? 59 1500000000).getD Instant.epoch,
    (Instant.ofParts? (-1) 1).getD Instant.epoch]

private theorem countable_of_clockTimes
    (times : frame.columns.map (fun column => column.values.map Value.time?) =
      [clockTimes.map some, [none, none]]) : frame.Countable := by
  intro field member t inside
  have found : some t ∈ field.column.values.map Value.time? := List.mem_map.2 ⟨_, inside, rfl⟩
  have listed : field.column.values.map Value.time? ∈
      frame.columns.map fun column => column.values.map Value.time? :=
    List.mem_map_of_mem (List.mem_map_of_mem member)
  rw [times, List.mem_pair] at listed
  rcases listed with here | here
  · rw [here] at found
    have among : t ∈ clockTimes := by simpa using found
    rcases List.mem_pair.1 among with rfl | rfl <;> decide
  · rw [here] at found
    simp at found

theorem document_ofArrow_toArrow_clockReadings :
    ∃ frame batch again text, ofDocument clockReadings = .ok frame ∧ frame.Countable ∧
      (∀ number ∈ frame.schema.numbers, number.ReadsBack) ∧ frame.toArrow = .ok batch ∧
      ofArrow batch = .ok again ∧ frame.document .all = .ok text ∧
      again.document .all = .ok text := by
  have made : (ofDocument clockReadings).toOption.map (fun frame => (frame.schema.numbers,
      frame.columns.map fun column => column.values.map Value.time?)) =
        some ([.whole 2 (by decide)], [clockTimes.map some, [none, none]]) := by
    decide +kernel
  cases read : ofDocument clockReadings with
  | error fault =>
    rw [read] at made
    cases made
  | ok frame =>
    rw [read] at made
    obtain ⟨figures, times⟩ := Prod.mk.inj (Option.some.inj made)
    have countable := countable_of_clockTimes times
    have numbers : ∀ number ∈ frame.schema.numbers, number.ReadsBack := by
      rw [figures]
      rintro _ (_ | ⟨_, ⟨⟩⟩)
      exact JsonNumber.readsBack_whole _
    obtain ⟨batch, again, stored, loaded, same, -⟩ :=
      document_ofArrow_toArrow read countable numbers
    obtain ⟨text, written, writtenAgain⟩ := same .all
    exact ⟨frame, batch, again, text, rfl, countable, numbers, stored, loaded, written,
      writtenAgain⟩

end Frame

end Columnar
