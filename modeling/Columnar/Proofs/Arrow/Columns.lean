import Columnar.Arrow.Reading
import Columnar.Proofs.Cells
import Columnar.Proofs.Time.Counts

/-! Columns as they are stored. Each kind has its own way to store an element, and what is stored
is read as the element again; only times have elements that cannot be stored. -/
namespace Columnar

/-- An instant that a stored count stands for: no leap second, and within 64 bits. -/
structure Instant.Storable (t : Instant) : Prop where
  noLeap : t.nano < nanosPerSecond
  low : -0x8000000000000000 ≤ t.nanos
  high : t.nanos < 0x8000000000000000

namespace Instant

theorem nanos?_of_storable {t : Instant} (storable : t.Storable) : t.nanos? = some t.nanos :=
  if_pos ⟨storable.low, storable.high⟩

/-- The count of a time is read as the time. -/
theorem readTimestamp_nanos (field row : Nat) {t : Instant} (storable : t.Storable) :
    readTimestamp .nanosecond field row (Int64.ofInt t.nanos) = .ok t := by
  have count : (Int64.ofInt t.nanos).toInt = t.nanos :=
    Int64.toInt_ofInt_of_le storable.low storable.high
  have scaled : (Int64.ofInt t.nanos).toInt * (TimeUnit.nanosecond.nanos : Int) = t.nanos := by
    rw [count]
    exact Int.mul_one _
  have found : TimeUnit.nanosecond.instant? (Int64.ofInt t.nanos) = some t := by
    simp only [TimeUnit.instant?, scaled]
    rw [if_pos ⟨storable.low, storable.high⟩, ofNanos?_nanos storable.noLeap]
  rw [readTimestamp, found]

/-- Every count of nanoseconds is a time. -/
theorem exists_readTimestamp (field row : Nat) (count : Int64) :
    ∃ t, readTimestamp .nanosecond field row count = .ok t := by
  have low := count.le_toInt
  have high := count.toInt_lt
  have scaled : count.toInt * (TimeUnit.nanosecond.nanos : Int) = count.toInt := Int.mul_one _
  obtain ⟨t, stands⟩ := exists_ofNanos? low high
  have found : TimeUnit.nanosecond.instant? count = some t := by
    simp only [TimeUnit.instant?, scaled]
    rw [if_pos ⟨by omega, by omega⟩, stands]
  exact ⟨t, by rw [readTimestamp, found]⟩

end Instant

theorem readDocument_octets (field row : Nat) (raw : RawJson) :
    readDocument field row raw.octets = .ok raw := by
  rw [readDocument, RawJson.parse_octets]

/-- Values that were stored one by one are read one by one. -/
theorem readSlots_map {α β : Type} {read : Nat → α → Except Error β} (store : β → α) (row : Nat)
    {contents : List (Option β)}
    (again : ∀ element, some element ∈ contents → ∀ row, read row (store element) = .ok element) :
    readSlots read row (contents.map (Option.map store)) = .ok contents := by
  induction contents generalizing row with
  | nil => rfl
  | cons content rest ih =>
    have later := ih (row + 1) fun element member => again element (by simp [member])
    cases content with
    | none => simp only [List.map_cons, Option.map_none, readSlots, later, Except.map]
    | some element =>
      have here := again element (by simp) row
      simp only [List.map_cons, Option.map_some, readSlots, here, later, bind, Except.bind]
      rfl

/-- Values that can all be read are read, and are missing where they were. -/
theorem exists_readSlots {α β : Type} {read : Nat → α → Except Error β}
    (each : ∀ slot row, ∃ value, read row slot = .ok value) (row : Nat)
    (slots : List (Option α)) :
    ∃ contents, readSlots read row slots = .ok contents ∧
      contents.map Option.isSome = slots.map Option.isSome := by
  induction slots generalizing row with
  | nil => exact ⟨[], rfl, rfl⟩
  | cons slot rest ih =>
    obtain ⟨contents, later, same⟩ := ih (row + 1)
    cases slot with
    | none =>
      refine ⟨none :: contents, ?_, congrArg (false :: ·) same⟩
      rw [readSlots, later, Except.map]
    | some slot =>
      obtain ⟨value, here⟩ := each slot row
      refine ⟨some value :: contents, ?_, congrArg (true :: ·) same⟩
      exact bind_eq_ok_iff.2 ⟨value, here, bind_eq_ok_iff.2 ⟨contents, later, rfl⟩⟩

namespace Cell

variable {type : FieldType}

/-- What is stored is missing where a cell holds nothing. -/
theorem isSome_toSlots {field row : Nat} {cells : List (Cell type)}
    {slots : List (Option type.kind.arrowType.storage.Slot)}
    (stored : toSlots field row cells = .ok slots) :
    slots.map Option.isSome = cells.map fun cell => cell.content.isSome := by
  induction cells generalizing row slots with
  | nil =>
    cases stored
    rfl
  | cons cell rest ih =>
    rw [toSlots] at stored
    cases held : cell.content with
    | none =>
      rw [held] at stored
      obtain ⟨slot, here, stored⟩ := bind_eq_ok_iff.1 stored
      cases here
      obtain ⟨others, later, made⟩ := bind_eq_ok_iff.1 stored
      cases made
      rw [List.map_cons, List.map_cons, held, ih later]
      rfl
    | some element =>
      rw [held] at stored
      obtain ⟨slot, here, stored⟩ := bind_eq_ok_iff.1 stored
      obtain ⟨found, -, rfl⟩ := map_eq_ok_iff.1 here
      obtain ⟨others, later, made⟩ := bind_eq_ok_iff.1 stored
      cases made
      rw [List.map_cons, List.map_cons, held, ih later]
      rfl

/-- What cells hold, as it is stored. -/
theorem toSlots_eq (field row : Nat)
    (store : type.kind.Element → type.kind.arrowType.storage.Slot) {cells : List (Cell type)}
    (stored : ∀ element, some element ∈ cells.map content →
      ∀ row, type.kind.toSlot field row element = .ok (store element)) :
    toSlots field row cells = .ok ((cells.map content).map (Option.map store)) := by
  induction cells generalizing row with
  | nil => rfl
  | cons cell rest ih =>
    have later := ih (row + 1) fun element member => stored element (by simp [member])
    cases held : cell.content with
    | none =>
      simp only [toSlots, held, later, bind, Except.bind, List.map_cons]
      rfl
    | some element =>
      have here := stored element (by simp [held]) row
      simp only [toSlots, held, here, later, bind, Except.bind, Except.map, List.map_cons]
      rfl

end Cell

/-- What cells hold makes up the column of these cells again. -/
theorem Kind.column_contents {kind : Kind} {nullable : Bool} (field : Nat)
    (cells : List (Cell ⟨kind, nullable⟩)) :
    kind.column field nullable (cells.map Cell.content) = .ok ⟨⟨kind, nullable⟩, ⟨cells⟩⟩ := by
  refine bind_eq_ok_iff.2 ⟨cells, mapM_eq_ok_iff.2 (List.forall₂_map_left_iff.2 ?_), rfl⟩
  apply List.forall₂_same.2
  intro cell _
  obtain ⟨content, present⟩ := cell
  cases content with
  | none =>
    exact dif_pos (Cell.nullable_of_content_none ⟨none, present⟩ rfl)
  | some element => rfl

/-- Contents make up a column when nothing is missing that the type requires. -/
theorem Kind.exists_column {kind : Kind} {nullable : Bool} (field : Nat)
    {contents : List (Option kind.Element)}
    (present : nullable = false → ∀ content ∈ contents, content.isSome = true) :
    ∃ column, kind.column field nullable contents = .ok column := by
  have cells : ∃ cells : List (Cell ⟨kind, nullable⟩), cells.map Cell.content = contents := by
    induction contents with
    | nil => exact ⟨[], rfl⟩
    | cons content rest ih =>
      obtain ⟨cells, rfl⟩ := ih fun required other member =>
        present required other (List.mem_cons_of_mem _ member)
      exact ⟨⟨content, fun required => present required content (by simp)⟩ :: cells, rfl⟩
  obtain ⟨cells, rfl⟩ := cells
  exact ⟨_, Kind.column_contents field cells⟩

/-- A column is read from what is stored of its cells, once it is known whether it holds indexes. -/
theorem Column.read_stored (column : Column) (position : Nat)
    (times : ∀ t, Value.of .time t ∈ column.values → t.Storable) :
    ∃ slots, Cell.toSlots position 0 column.cells.toList = .ok slots ∧
      column.type.kind.arrowType.column position column.type.nullable (column.type.kind == .enum)
        slots = .ok column := by
  obtain ⟨⟨kind, nullable⟩, ⟨cells⟩⟩ := column
  cases kind with
  | time =>
    have storable : ∀ t : Instant, some t ∈ cells.map Cell.content → t.Storable := by
      intro t member
      obtain ⟨cell, inCells, held⟩ := List.mem_map.1 member
      refine times t (List.mem_map.2 ⟨cell, inCells, ?_⟩)
      rw [Cell.value, held]
    refine ⟨_, Cell.toSlots_eq position 0 (fun t : Instant => Int64.ofInt t.nanos)
      fun t member row => ?_, ?_⟩
    · simp only [Kind.toSlot, Instant.nanos?_of_storable (storable t member)]
    · refine bind_eq_ok_iff.2 ⟨_, readSlots_map _ 0 fun t member row => ?_,
        Kind.column_contents _ _⟩
      exact Instant.readTimestamp_nanos position row (storable t member)
  | json =>
    refine ⟨_, Cell.toSlots_eq position 0 RawJson.octets fun _ _ _ => rfl, ?_⟩
    refine bind_eq_ok_iff.2 ⟨_, readSlots_map _ 0 fun raw _ row => ?_, Kind.column_contents _ _⟩
    exact readDocument_octets position row raw
  | _ =>
    refine ⟨_, Cell.toSlots_eq position 0 id fun _ _ _ => rfl, ?_⟩
    rw [Option.map_id, List.map_id]
    exact Kind.column_contents position cells

theorem Column.storable_of_ne_time (column : Column) (other : column.type.kind ≠ .time) (t : Instant)
    (member : Value.of .time t ∈ column.values) : t.Storable := by
  obtain ⟨cell, -, held⟩ := List.mem_map.1 member
  rw [Cell.value] at held
  split at held
  · cases held
  · exact absurd (congrArg Value.kind? held) (by simpa [Value.kind?] using other)

/-- Whatever is stored of a column is read as a column. -/
theorem Column.exists_read_stored (column : Column) (position : Nat)
    {slots : List (Option column.type.kind.arrowType.storage.Slot)}
    (stored : Cell.toSlots position 0 column.cells.toList = .ok slots) :
    ∃ back, column.type.kind.arrowType.column position column.type.nullable
      (column.type.kind == .enum) slots = .ok back := by
  by_cases time : column.type.kind = .time
  · obtain ⟨⟨kind, nullable⟩, ⟨cells⟩⟩ := column
    cases time
    obtain ⟨contents, read, same⟩ :=
      exists_readSlots (fun count row => Instant.exists_readTimestamp position row count) 0 slots
    have whole : nullable = false → ∀ content ∈ contents, content.isSome = true := by
      intro required content member
      have inSlots : content.isSome ∈ slots.map Option.isSome :=
        same ▸ List.mem_map_of_mem member
      rw [Cell.isSome_toSlots stored] at inSlots
      obtain ⟨cell, -, held⟩ := List.mem_map.1 inSlots
      rw [← held]
      exact cell.present required
    obtain ⟨back, made⟩ : ∃ back, Kind.time.column position nullable contents = .ok back :=
      Kind.exists_column position whole
    exact ⟨back, bind_eq_ok_iff.2 ⟨contents, read, made⟩⟩
  · obtain ⟨found, again, read⟩ := column.read_stored position (column.storable_of_ne_time time)
    rw [stored] at again
    cases again
    exact ⟨column, read⟩

end Columnar
