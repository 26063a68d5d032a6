import Columnar.Proofs.BufferPool
import Columnar.Proofs.Document.RoundTrip

/-! Documents kept ready. What has been put together from the sections of a frame is, byte for byte,
what is written for the frame directly, whichever buffers the sections and the documents were written
in; and there is something to keep just when there is something to write. -/
namespace Columnar

/-- A frame has a data section when it has no fields or fields of one length. -/
theorem Frame.dataSection_isOk_iff {frame : Frame} :
    (∃ data, frame.dataSection = .ok data) ↔
      frame.fields = [] ∨ ∃ rows, ∀ field ∈ frame.fields, field.size = rows := by
  constructor
  · rintro ⟨data, written⟩
    obtain ⟨_, checked, -⟩ := bind_eq_ok_iff.1 written
    unfold checkLengths at checked
    split at checked
    next empty => exact .inl (List.isEmpty_iff.1 empty)
    · obtain ⟨rows, counted, -⟩ := map_eq_ok_iff.1 checked
      exact .inr ⟨rows, (rowCount_eq_ok_iff.1 counted).2⟩
  · intro even
    have checked : frame.checkLengths = .ok () := by
      obtain empty | ⟨rows, same⟩ := even
      · rw [checkLengths, empty]
        rfl
      · have lengths : ∀ column ∈ frame.columns, column.size = rows := by
          intro column member
          obtain ⟨field, listed, rfl⟩ := List.mem_map.1 member
          exact same field listed
        exact checkLengths_of_even lengths
    rw [dataSection, checked]
    exact ⟨_, rfl⟩

namespace DocumentCache

private theorem ascii_schema :
    Json.ascii "\"schema\":".toList = Json.stringOctets "schema" ++ [0x3A] := by
  decide +kernel

private theorem ascii_data : Json.ascii "\"data\":".toList = Json.stringOctets "data" ++ [0x3A] := by
  decide +kernel

/-- Put together from its sections, a document is an object with one member for each of them. -/
theorem octets_ofSections (schema data : Octets) (parts : FrameParts) :
    (ofSections schema data).octets parts = Json.objectOctets
      ((if parts.hasSchema then [("schema", schema)] else []) ++
        if parts.hasData then [("data", data)] else []) := by
  cases parts <;> simp only [octets, ofSections, assemble, ascii_schema, ascii_data] <;>
    simp [Json.objectOctets, Json.commaSeparated, FrameParts.hasSchema, FrameParts.hasData]

/-- The kept documents of a frame are its documents. -/
theorem document_eq {frame : Frame} {data : Octets} (written : frame.dataSection = .ok data)
    (parts : FrameParts) :
    frame.document parts = .ok ((ofSections frame.schema.octets data).octets parts) := by
  rw [octets_ofSections, Frame.document, written]
  cases parts.hasData <;> rfl

/-- Whatever has been done with two pools before, documents are kept for a frame just when its
document with both sections can be written, and that is when it has no fields or fields of one
length. The kept documents are those that are written directly, and the kept sections are the ones
that stand in them. -/
theorem ofFrame_agrees (firstLimit secondLimit : Nat) (first second : List PoolCall)
    (frame : Frame) :
    ((∃ cache, (ofFrame (.after firstLimit first) frame).1 = .ok cache) ↔
      ∃ octets, ((BufferPool.after secondLimit second).encode frame .all).1 = .ok octets) ∧
    ((∃ octets, ((BufferPool.after secondLimit second).encode frame .all).1 = .ok octets) ↔
      frame.fields = [] ∨ ∃ rows, ∀ field ∈ frame.fields, field.size = rows) ∧
    ∀ cache, (ofFrame (.after firstLimit first) frame).1 = .ok cache →
      (∀ parts, ((BufferPool.after secondLimit second).encode frame parts).1 =
        .ok (cache.octets parts)) ∧
      (∀ parts, cache.octets parts = Json.objectOctets
        ((if parts.hasSchema then [("schema", cache.schema)] else []) ++
          if parts.hasData then [("data", cache.data)] else [])) ∧
      cache.schema = frame.schema.octets ∧ frame.dataSection = .ok cache.data := by
  have kept : (ofFrame (.after firstLimit first) frame).1 =
      frame.dataSection.map fun data => ofSections frame.schema.octets data :=
    (PoolUse.sound_run firstLimit first).orderly.result_ofFrame frame
  have direct : ∀ parts, ((BufferPool.after secondLimit second).encode frame parts).1 =
      frame.document parts :=
    (PoolUse.sound_run secondLimit second).orderly.result_encode frame
  have keeps : (∃ cache, (ofFrame (.after firstLimit first) frame).1 = .ok cache) ↔
      ∃ data, frame.dataSection = .ok data := by
    rw [kept]
    constructor
    · rintro ⟨_, found⟩
      obtain ⟨data, written, -⟩ := map_eq_ok_iff.1 found
      exact ⟨data, written⟩
    · rintro ⟨data, written⟩
      exact ⟨_, map_eq_ok_iff.2 ⟨data, written, rfl⟩⟩
  have writes : (∃ octets, ((BufferPool.after secondLimit second).encode frame .all).1 =
      .ok octets) ↔ ∃ data, frame.dataSection = .ok data := by
    rw [direct]
    constructor
    · rintro ⟨_, found⟩
      obtain ⟨_, made, -⟩ := bind_eq_ok_iff.1 found
      obtain ⟨data, written, -⟩ := map_eq_ok_iff.1 made
      exact ⟨data, written⟩
    · rintro ⟨data, written⟩
      exact ⟨_, document_eq written .all⟩
  refine ⟨keeps.trans writes.symm, writes.trans Frame.dataSection_isOk_iff, fun cache found => ?_⟩
  rw [kept] at found
  obtain ⟨data, written, rfl⟩ := map_eq_ok_iff.1 found
  exact ⟨fun parts => (direct parts).trans (document_eq written parts),
    octets_ofSections _ _, rfl, written⟩

/-- Readings with a nan and an empty cell. -/
def gauge : Frame :=
  { name := "gauge"
    refId := "A"
    fields := [⟨"v", Labels.ofPairs [("a", "b")], none,
      ⟨⟨.float64, true⟩, ⟨[Cell.of Binary64.nan, Cell.empty rfl]⟩⟩⟩] }

theorem ofFrame_agrees_gauge :
    ∃ cache, (ofFrame (.after 1 [.lease 0, .edit 0 fun _ => [0x21], .drop 0]) gauge).1 =
        .ok cache ∧
      (∀ parts, ((BufferPool.after 0 []).encode gauge parts).1 = .ok (cache.octets parts)) ∧
      cache.data =
        Json.ascii "\x7b\"fields\":[[null,null]],\"entities\":[\x7b\"NaN\":[0]\x7d]\x7d".toList := by
  obtain ⟨keeps, writes, agrees⟩ :=
    ofFrame_agrees 1 0 [.lease 0, .edit 0 fun _ => [0x21], .drop 0] [] gauge
  obtain ⟨cache, kept⟩ := keeps.2 (writes.2 (.inr ⟨2, List.forall_mem_singleton.2 rfl⟩))
  obtain ⟨direct, -, -, data⟩ := agrees cache kept
  have text : (match gauge.dataSection with
      | .ok data => decide (data = Json.ascii
          "\x7b\"fields\":[[null,null]],\"entities\":[\x7b\"NaN\":[0]\x7d]\x7d".toList)
      | .error _ => false) = true := by
    decide +kernel
  rw [data, decide_eq_true_eq] at text
  exact ⟨cache, kept, direct, text⟩

end DocumentCache

end Columnar
