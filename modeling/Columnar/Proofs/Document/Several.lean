import Columnar.Document.Reading
import Columnar.Proofs.BufferPool
import Columnar.Proofs.Json.Reached

/-! Several documents in one array. The array is written just when all of its documents are, and holds
them with commas between them; it is read just when it is not too deep and all of its documents are
read by themselves, and gives their frames in order. -/
namespace Columnar

namespace DraftReader

private theorem items_json (ending : DraftEnd) (drafts : List Draft) :
    items json ending drafts = lift (Draft.itemsToJson ending drafts) := by
  induction drafts with
  | nil => cases ending <;> rfl
  | cons draft rest ih =>
    rw [items, Draft.itemsToJson, ih, json]
    cases draft.toJson with
    | error fault => rfl
    | ok value => cases Draft.itemsToJson ending rest <;> rfl

theorem lift_eq_ok_iff {α : Type} {step : Except SyntaxFault α} {result : α} :
    lift step = .ok result ↔ step = .ok result := by
  cases step <;> simp [lift]

/-- Reading the values of a list is reading a value that is a list. -/
theorem listOf_json_eq_ok_iff {draft : Draft} {values : List Json} :
    listOf json draft = .ok values ↔ draft.toJson = .ok (.list values) := by
  cases draft with
  | list drafts ending =>
    rw [listOf, items_json, lift_eq_ok_iff, Draft.toJson, map_eq_ok_iff]
    simp
  | number reading => cases reading <;> simp [listOf, Draft.toJson, Except.map]
  | string text => cases reading : text.reading <;> simp [listOf, Draft.toJson, Except.map, reading]
  | object members ending =>
    cases read : Draft.membersToJson ending [] members <;>
      simp [listOf, Draft.toJson, Except.map, read]
  | _ => simp [listOf, Draft.toJson]

theorem ofText_listOf_json_eq_ok_iff {octets : Octets} {values : List Json} :
    ofText (fun _ => listOf json) octets = .ok values ↔
      Json.read octets = .ok (.list values) := by
  constructor
  · intro read
    obtain ⟨found, foundRead, ended⟩ := bind_eq_ok_iff.1 read
    refine bind_eq_ok_iff.2 ⟨.list found, listOf_json_eq_ok_iff.1 foundRead, ?_⟩
    split at ended <;> simp_all
  · intro read
    obtain ⟨found, foundRead, ended⟩ := bind_eq_ok_iff.1 read
    have same : found = .list values := by
      split at ended <;> simp_all
    subst same
    refine bind_eq_ok_iff.2 ⟨values, listOf_json_eq_ok_iff.2 foundRead, ?_⟩
    split at ended <;> simp_all

end DraftReader

namespace Frame

theorem ofDocument_eq_ok_iff {octets : Octets} {frame : Frame} :
    ofDocument octets = .ok frame ↔
      ∃ value, Json.read octets = .ok value ∧ ofJson value = .ok frame := by
  rw [ofDocument]
  refine bind_eq_ok_iff.trans ?_
  simp only [mapError_eq_ok_iff]

theorem ofDocuments_eq_ok_iff {octets : Octets} {frames : List Frame} :
    ofDocuments octets = .ok frames ↔ ∃ values, Json.read octets = .ok (.list values) ∧
      List.Forall₂ (fun value frame => ofJson value = .ok frame) values frames := by
  rw [ofDocuments]
  refine bind_eq_ok_iff.trans ?_
  simp only [mapError_eq_ok_iff, mapM_eq_ok_iff, DraftReader.ofText_listOf_json_eq_ok_iff]

theorem documents_eq_ok_iff {frames : List Frame} {parts : FrameParts} {octets : Octets} :
    documents frames parts = .ok octets ↔
      ∃ texts, List.Forall₂ (fun frame text => frame.document parts = .ok text) frames texts ∧
        octets = Json.listOctets texts := by
  rw [documents]
  refine bind_eq_ok_iff.trans ?_
  simp only [mapM_eq_ok_iff]
  refine exists_congr fun texts => and_congr_right' ⟨fun written => ?_, fun same => same ▸ rfl⟩
  cases written
  rfl

/-- Documents that stand in an array are read as they are read by themselves, as long as the array is
not too deep. -/
theorem ofDocuments_listOctets_iff (documents : List RawJson) (frames : List Frame) :
    ofDocuments (Json.listOctets (documents.map RawJson.octets)) = .ok frames ↔
      Draft.Shallow (Json.listOctets (documents.map RawJson.octets)) ∧
        List.Forall₂ (fun document frame => ofDocument document.octets = .ok frame)
          documents frames := by
  have sound : ∀ text ∈ documents.map RawJson.octets, Json.syntaxFault? text = none := by
    intro text member
    obtain ⟨document, -, rfl⟩ := List.mem_map.1 member
    exact document.sound
  simp only [ofDocuments_eq_ok_iff, ofDocument_eq_ok_iff, Json.read_list_iff_apart sound,
    List.forall₂_map_left_iff, forall₂_comp_iff]
  constructor
  · rintro ⟨values, ⟨shallow, items, read, same⟩, made⟩
    cases same
    exact ⟨shallow, values, read, made⟩
  · rintro ⟨shallow, values, read, made⟩
    exact ⟨values, ⟨shallow, values, read, rfl⟩, made⟩

/-- Whatever has been done with two pools before, an array of documents is written with one of them
just when all of its documents are written with the other one, and it holds these. An array of sound
documents is read just when it is not too deep and all of them are read, and gives what these give. -/
theorem documentList_pointwise (firstLimit secondLimit : Nat) (first second : List PoolCall) :
    (∀ (frames : List Frame) (parts : FrameParts) (octets : Octets),
      ((BufferPool.after firstLimit first).encodeAll frames parts).1 = .ok octets ↔
        ∃ texts, List.Forall₂ (fun frame text =>
            ((BufferPool.after secondLimit second).encode frame parts).1 = .ok text) frames texts ∧
          octets = Json.listOctets texts) ∧
    ∀ (documents : List RawJson) (frames : List Frame),
      ofDocuments (Json.listOctets (documents.map RawJson.octets)) = .ok frames ↔
        Draft.Shallow (Json.listOctets (documents.map RawJson.octets)) ∧
          List.Forall₂ (fun document frame => ofDocument document.octets = .ok frame)
            documents frames := by
  refine ⟨fun frames parts octets => ?_, ofDocuments_listOctets_iff⟩
  have orderly := (PoolUse.sound_run firstLimit first).orderly
  have others := (PoolUse.sound_run secondLimit second).orderly
  have all : ((BufferPool.after firstLimit first).encodeAll frames parts).1 =
      documents frames parts := orderly.result_encodeAll frames parts
  have each : ∀ frame, ((BufferPool.after secondLimit second).encode frame parts).1 =
      frame.document parts := fun frame => others.result_encode frame parts
  simp only [all, each]
  exact documents_eq_ok_iff

end Frame

end Columnar
