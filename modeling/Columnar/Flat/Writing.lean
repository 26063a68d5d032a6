import Columnar.Binary.LittleEndian

/-! Flat tables written as octets. Every part begins at a multiple of eight and its own parts follow
it, so that no part depends on where it will stand. -/
namespace Columnar

mutual

/-- A part of a flat document. -/
inductive FlatPart where
  | table (slots : List FlatSlot)
  | list (items : List FlatPart)
  /-- Records of the same width, one after the other. -/
  | records (count : Nat) (octets : Octets)
  | text (text : String)

/-- The contents of one slot of a table. -/
inductive FlatSlot where
  | empty
  | number (width pattern : Nat)
  | part (part : FlatPart)

end

/-- Octets, and where among them the part that they are written for begins. -/
structure FlatOctets where
  start : Nat
  octets : Octets

namespace Flat

/-- The octets of slots and of the parts behind them. Slots have eight octets each; the parts begin
at a distance from the first slot. -/
def layOut (width : Nat) : Nat → Nat → List (Sum Octets FlatOctets) → Octets × Octets
  | _, _, [] => ([], [])
  | slot, parts, .inl contents :: rest =>
    let (slots, behind) := layOut width (slot + width) parts rest
    (contents ++ slots, behind)
  | slot, parts, .inr part :: rest =>
    let (slots, behind) := layOut width (slot + width) (parts + part.octets.length) rest
    let distance := littleEndian 4 (parts + part.start - slot)
    (distance ++ List.replicate (width - 4) 0 ++ slots, part.octets ++ behind)

/-- A table from the contents of its slots. The list of slots comes first. -/
def tableOctets (contents : List (Option (Sum Octets FlatOctets))) : FlatOctets :=
  let count := contents.length
  let listing := littleEndian 2 (4 + 2 * count) ++ littleEndian 2 (8 + 8 * count)
    ++ (contents.zipIdx.flatMap fun (content, index) =>
      littleEndian 2 (if content.isSome then 8 + 8 * index else 0))
  let listing := Octets.padded listing
  let cells := contents.map fun content => content.getD (.inl (List.replicate 8 0))
  let (slots, behind) := layOut 8 0 (8 * count) cells
  ⟨listing.length, listing ++ littleEndian 4 listing.length ++ [0, 0, 0, 0] ++ slots ++ behind⟩

/-- A list of parts. -/
def listOctets (items : List FlatOctets) : FlatOctets :=
  let room := (Octets.padded (List.replicate (4 + 4 * items.length) 0)).length
  let (slots, behind) := layOut 4 0 (room - 4) (items.map .inr)
  ⟨0, Octets.padded (littleEndian 4 items.length ++ slots) ++ behind⟩

mutual

/-- The octets of a part. -/
def octets : FlatPart → FlatOctets
  | .table slots => tableOctets (slotContents slots)
  | .list items => listOctets (partOctets items)
  | .records count octets => ⟨4, Octets.padded ([0, 0, 0, 0] ++ littleEndian 4 count ++ octets)⟩
  | .text text =>
    let octets := Octets.ofString text
    ⟨0, Octets.padded (littleEndian 4 octets.length ++ octets ++ [0])⟩

def partOctets : List FlatPart → List FlatOctets
  | [] => []
  | part :: rest => octets part :: partOctets rest

def slotContents : List FlatSlot → List (Option (Sum Octets FlatOctets))
  | [] => []
  | .empty :: rest => none :: slotContents rest
  | .number width pattern :: rest =>
    some (.inl (Octets.padded (littleEndian width pattern))) :: slotContents rest
  | .part part :: rest => some (.inr (octets part)) :: slotContents rest

end

/-- A document, which begins with the distance to its first table. -/
def document (root : FlatPart) : Octets :=
  let written := octets root
  littleEndian 4 (8 + written.start) ++ [0, 0, 0, 0] ++ written.octets

end Flat

end Columnar
