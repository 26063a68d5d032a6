import Columnar.Proofs.Arrow.RoundTrip
import Columnar.Proofs.Document.Canonical

/-! What is written and can be read again. Special floats in cells, bounds of a configuration that
are not finite and leap seconds are never an obstacle. A figure about the query that is not finite
is one: it is written as null, and a frame with such a figure is written in both forms and read from
none. -/
namespace Columnar

namespace Frame

variable {frame : Frame}

/-- The frame of a document with a data section has columns of one length. -/
private theorem even_of_document {octets : Octets} (written : frame.document .all = .ok octets)
    (narrow : ∀ column ∈ frame.columns, column.size < 0x10000000000000000) :
    ∃ rows < 0x10000000000000000, ∀ column ∈ frame.columns, column.size = rows := by
  obtain ⟨members, dataWritten, -⟩ := bind_eq_ok_iff.1 written
  obtain ⟨text, dataWritten, -⟩ := map_eq_ok_iff.1 dataWritten
  obtain ⟨⟨⟩, lengths, -⟩ := bind_eq_ok_iff.1 dataWritten
  unfold checkLengths at lengths
  split at lengths
  next none =>
    refine ⟨0, by decide, fun column member => ?_⟩
    rw [columns, List.isEmpty_iff.1 none] at member
    cases member
  next some =>
    obtain ⟨rows, counted, -⟩ := map_eq_ok_iff.1 lengths
    obtain ⟨nonempty, even⟩ := rowCount_eq_ok_iff.1 counted
    have each : ∀ column ∈ frame.columns, column.size = rows := by
      intro column member
      obtain ⟨field, listed, rfl⟩ := List.mem_map.1 member
      exact even field listed
    obtain ⟨first, rest, fields⟩ := List.exists_cons_of_ne_nil nonempty
    have inColumns : first.column ∈ frame.columns :=
      List.mem_map_of_mem (by rw [fields]; exact .head _)
    exact ⟨rows, each _ inColumns ▸ narrow _ inColumns, each⟩

/-- A document that was written is read when the figures about the query are numbers, and then
only. -/
theorem ofDocument_document_iff {octets : Octets}
    (narrow : ∀ column ∈ frame.columns, column.size < 0x10000000000000000)
    (readable : ∀ column ∈ frame.columns, column.Readable) (readsBack : frame.ReadsBack)
    (written : frame.document .all = .ok octets) (shallow : Draft.Shallow octets) :
    (∃ back, ofDocument octets = .ok back) ↔ frame.FiguresFinite := by
  have even := even_settled (even_of_document written narrow)
  have expressible := expressible_settled readable
  have numbers := readsBack_settled readsBack
  rw [← document_settled] at written
  constructor
  · rintro ⟨back, read⟩
    by_contra stray
    obtain ⟨text, values, again, -, spelled⟩ := document_spelled even expressible numbers
    rw [written] at again
    cases again
    obtain ⟨value, found, told⟩ := Json.read_of_spelledBy spelled shallow
    obtain ⟨other, same, made⟩ := bind_eq_ok_iff.1 read
    rw [mapError_eq_ok_iff, found] at same
    cases same
    obtain ⟨content, contentRead, -⟩ := bind_eq_ok_iff.1 made
    exact DocumentContent.ofJson_refuses told nofun (schema_refuses .value stray) content
      (mapError_eq_ok_iff.1 contentRead)
  · intro finite
    have columns : frame.settled.afterText.columns = frame.settled.columns := by
      rw [Frame.columns, Frame.columns, afterText, List.map_map]
      rfl
    obtain ⟨text, again, read⟩ := document_readAs even expressible numbers columns
      (schema_gives_afterText .value finite)
    rw [written] at again
    cases again
    exact ⟨_, read shallow⟩

/-- The columns of fields are read, whatever their cells and bounds are. -/
private theorem exists_toFields {fields : List Field}
    (legible : ∀ field ∈ fields, ∀ config ∈ field.config, config.toJson.Legible) (position : Nat)
    {columns : List ArrowColumn} (stored : arrowColumns position fields = .ok columns) :
    ∃ back, ArrowColumn.toFields position columns = .ok back := by
  induction fields generalizing position columns with
  | nil =>
    cases stored
    exact ⟨[], rfl⟩
  | cons field rest ih =>
    obtain ⟨slots, here, stored⟩ := bind_eq_ok_iff.1 stored
    obtain ⟨others, later, made⟩ := bind_eq_ok_iff.1 stored
    cases made
    obtain ⟨cells, read⟩ := field.column.exists_read_stored position here
    obtain ⟨back, readLater⟩ :=
      ih (fun other member => legible other (List.mem_cons_of_mem _ member)) _ later
    exact ⟨_, bind_eq_ok_iff.2 ⟨_, Field.toField_slots (legible field (.head _)) position read,
      bind_eq_ok_iff.2 ⟨back, readLater, rfl⟩⟩⟩

/-- A record batch that was made of a frame is read when the figures about the query are numbers,
and then only. -/
theorem ofArrow_toArrow_iff {batch : ArrowBatch}
    (configs : ∀ field ∈ frame.fields, ∀ config ∈ field.config, config.toJson.Legible)
    (info : ∀ info ∈ frame.info, info.toJson.Legible) (made : frame.toArrow = .ok batch) :
    (∃ back, ofArrow batch = .ok back) ↔ frame.FiguresFinite := by
  obtain ⟨rows, -, made⟩ := bind_eq_ok_iff.1 made
  obtain ⟨columns, stored, made⟩ := bind_eq_ok_iff.1 made
  cases made
  have written : frame.arrowMetadata.lookup frameMetaKey =
      frame.info.map fun info => info.toJson.text :=
    lookup_arrowMetadata (.tail _ (.tail _ (.head _)))
  constructor
  · rintro ⟨back, read⟩ found present
    by_contra stray
    obtain ⟨result, infoRead, -⟩ := bind_eq_ok_iff.1 read
    rw [Option.mem_def.1 present] at written
    exact info_refused written (info found present) stray result infoRead
  · intro finite
    obtain ⟨fields, read⟩ := exists_toFields configs 0 stored
    exact ⟨_, bind_eq_ok_iff.2 ⟨_, info_read_afterText written info finite,
      bind_eq_ok_iff.2 ⟨fields, read, rfl⟩⟩⟩

/-- What is written is read again, as a document and as a record batch, when the figures about the
query are numbers, and then only. A document in a cell is copied as it is and read with the rest, so
it must have a value and must not make the whole too deep; a record batch keeps any. -/
theorem readAgain_iff (readsBack : frame.ReadsBack)
    (configs : ∀ field ∈ frame.fields, ∀ config ∈ field.config, config.toJson.Legible)
    (info : ∀ info ∈ frame.info, info.toJson.Legible) :
    (∀ octets, frame.document .all = .ok octets → Draft.Shallow octets →
      (∀ column ∈ frame.columns, column.size < 0x10000000000000000 ∧ column.Readable) →
        ((∃ back, ofDocument octets = .ok back) ↔ frame.FiguresFinite)) ∧
    ∀ batch, frame.toArrow = .ok batch →
      ((∃ back, ofArrow batch = .ok back) ↔ frame.FiguresFinite) :=
  ⟨fun _ written shallow columns =>
      ofDocument_document_iff (fun column member => (columns column member).1)
        (fun column member => (columns column member).2) readsBack written shallow,
    fun _ made => ofArrow_toArrow_iff configs info made⟩

/-- Readings of a gauge with special floats wherever there is a float, except in the figure, and a
leap second. -/
def gaugeReadings : Frame where
  fields :=
    [⟨"at", Labels.empty, none, ⟨⟨.time, false⟩,
        ⟨[Cell.of ((Instant.ofParts? 59 1250000000).getD Instant.epoch)]⟩⟩⟩,
      ⟨"level", Labels.empty, some { min := some Binary64.nan, max := some Binary64.infinity },
        ⟨⟨.float64, true⟩, ⟨[Cell.of Binary64.negInfinity]⟩⟩⟩]
  info := some { stats := [{ displayName := "load", value := ⟨0x3FE0000000000000⟩ }] }

private theorem load_isFinite : Binary64.isFinite ⟨0x3FE0000000000000⟩ = true := by
  decide +kernel

private theorem load_readsBack :
    ∀ number ∈ [JsonNumber.real ⟨0x3FE0000000000000⟩ load_isFinite], number.ReadsBack := by
  decide +kernel

private theorem gaugeReadings_readsBack : gaugeReadings.ReadsBack := by
  constructor
  · exact load_readsBack
  · simp only [columns, gaugeReadings, List.map_cons, List.map_nil, List.forall_mem_cons]
    refine ⟨fun _ _ _ _ => trivial, ?_, List.forall_mem_nil _⟩
    simp only [Column.ReadsBack, List.forall_mem_cons]
    refine ⟨?_, List.forall_mem_nil _⟩
    rintro _ ⟨⟩ finite
    exact absurd finite (by decide +kernel)

private theorem gaugeReadings_readable : ∀ column ∈ gaugeReadings.columns,
    column.size < 0x10000000000000000 ∧ column.Readable := by
  simp only [columns, gaugeReadings, List.map_cons, List.map_nil, List.forall_mem_cons]
  refine ⟨⟨by decide, ?_⟩, ⟨by decide, fun _ _ _ _ => trivial⟩, List.forall_mem_nil _⟩
  simp only [Column.Readable, List.forall_mem_cons]
  refine ⟨?_, List.forall_mem_nil _⟩
  rintro _ ⟨⟩
  exact Instant.exists_ofMillis?_millis (by decide)

theorem readAgain_gaugeReadings :
    gaugeReadings.FiguresFinite ∧
      (∃ octets back, gaugeReadings.document .all = .ok octets ∧ ofDocument octets = .ok back) ∧
      ∃ batch back, gaugeReadings.toArrow = .ok batch ∧ ofArrow batch = .ok back := by
  have finite : gaugeReadings.FiguresFinite := by
    rintro _ ⟨⟩ stat member
    rcases List.mem_singleton.1 member with rfl
    decide +kernel
  have configs : ∀ field ∈ gaugeReadings.fields, ∀ config ∈ field.config,
      config.toJson.Legible := by
    simp only [gaugeReadings, List.forall_mem_cons]
    refine ⟨?_, ?_, List.forall_mem_nil _⟩
    · rintro _ ⟨⟩
    · rintro _ ⟨⟩
      exact ⟨by decide, List.forall_mem_nil _⟩
  have info : ∀ info ∈ gaugeReadings.info, info.toJson.Legible := by
    rintro _ ⟨⟩
    exact ⟨by decide, load_readsBack⟩
  obtain ⟨documents, batches⟩ := readAgain_iff gaugeReadings_readsBack configs info
  have written : ((gaugeReadings.document .all).toOption.map fun octets =>
      decide (Draft.Shallow octets)) = some true := by
    decide +kernel
  have made : gaugeReadings.toArrow.toOption.isSome = true := by
    decide +kernel
  refine ⟨finite, ?_, ?_⟩
  · obtain ⟨octets, found, shallow⟩ := Option.map_eq_some_iff.1 written
    have found := toOption_eq_some_iff.1 found
    obtain ⟨back, read⟩ :=
      (documents octets found (of_decide_eq_true shallow) gaugeReadings_readable).2 finite
    exact ⟨octets, back, found, read⟩
  · cases found : gaugeReadings.toArrow with
    | error error =>
      rw [found] at made
      cases made
    | ok batch =>
      obtain ⟨back, read⟩ := (batches batch found).2 finite
      exact ⟨batch, back, rfl, read⟩

/-- A frame with a figure that is no number. -/
def strayFigure : Frame where
  name := "load"
  fields := [⟨"level", Labels.empty, none, ⟨⟨.int8, false⟩, ⟨[Cell.of (1 : Int8)]⟩⟩⟩]
  info := some { stats := [{ displayName := "load", value := Binary64.nan }] }

/-- A frame with a document whose number is out of range, which a check of the syntax passes. -/
def strayDocument : Frame where
  fields := [⟨"source", Labels.empty, none,
    ⟨⟨.json, false⟩, ⟨[Cell.of (⟨Json.ascii "1e999".toList, by decide +kernel⟩ : RawJson)]⟩⟩⟩]

private theorem refused_of_isNone {ε δ α β : Type} {write : Except ε α} {read : α → Except δ β}
    (refused : write.toOption.map (fun text => (read text).toOption.isNone) = some true) :
    ∃ text, write = .ok text ∧ ∀ result, read text ≠ .ok result := by
  cases written : write with
  | error fault =>
    rw [written] at refused
    cases refused
  | ok text =>
    refine ⟨text, rfl, fun result found => ?_⟩
    rw [written] at refused
    simp [Except.toOption, found] at refused

/-- Neither form of the first frame is read, and the document of the second one is not. -/
theorem stray_refused :
    (∃ octets, strayFigure.document .all = .ok octets ∧ ∀ back, ofDocument octets ≠ .ok back) ∧
      (∃ batch, strayFigure.toArrow = .ok batch ∧ ∀ back, ofArrow batch ≠ .ok back) ∧
      ∃ octets, strayDocument.document .all = .ok octets ∧
        ∀ back, ofDocument octets ≠ .ok back := by
  refine ⟨refused_of_isNone ?_, refused_of_isNone ?_, refused_of_isNone ?_⟩ <;> decide +kernel

end Frame

end Columnar
