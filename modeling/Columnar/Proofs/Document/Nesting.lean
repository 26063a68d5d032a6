import Columnar.Proofs.Document.Decoded

/-! How deep documents of frames are. What has been read from a place of a document is written at the
same place again, so that the document of a frame that has been read is not too deep to be read. -/
namespace Columnar

open Draft (Stays)

variable {depth level : Nat}

theorem Entities.depth_toJson (entities : Entities) : entities.toJson.depth ≤ 2 := by
  have listed : ∀ {key : String} {rows : List Nat}, ∀ member ∈
      (if rows.isEmpty then [] else [(key, Json.list (rows.map Json.ofNat))]),
        member.2.depth ≤ 1 := by
    intro key rows member present
    split at present
    · cases present
    · cases List.mem_singleton.1 present
      exact Json.depth_list_map rows fun row => Json.depth_ofNat row 0
  rw [toJson, Json.depth_object_le_iff]
  simp only [List.forall_mem_append]
  exact ⟨⟨listed, listed⟩, listed⟩

theorem Labels.depth_toJson (labels : Labels) : labels.toJson.depth ≤ 1 := by
  rw [toJson, Json.depth_object_le_iff]
  intro member listed
  obtain ⟨pair, -, rfl⟩ := List.mem_map.1 listed
  exact Nat.le_refl 0

namespace Frame

variable {width : Nat} {frame : Frame}

end Frame

end Columnar
