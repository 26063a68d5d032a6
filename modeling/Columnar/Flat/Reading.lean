import Columnar.Binary.LittleEndian

/-! Flat tables in octets. A table is a list of slots, each empty or at some distance from the table;
whatever does not fit into a slot stands further on, at a distance given in the slot. Everything is
checked before it is used: it must lie within the octets, and numbers must lie at multiples of their
width. -/
namespace Columnar

/-- Octets that can be reached by their position. -/
abbrev FlatData := Array UInt8

namespace Flat

/-- The octets between two positions, which need not be there. -/
def slice (data : FlatData) (start length : Nat) : Octets :=
  (data.extract start (start + length)).toList

/-- A number without sign. -/
def number? (width : Nat) (data : FlatData) (position : Nat) : Option Nat :=
  if position % width = 0 ∧ position + width ≤ data.size then
    some (ofLittleEndian (slice data position width))
  else none

/-- A number with sign. -/
def signed? (width : Nat) (data : FlatData) (position : Nat) : Option Int :=
  (number? width data position).map (withSignBit width)

def flag? (data : FlatData) (position : Nat) : Option Bool :=
  (number? 1 data position).map (· != 0)

/-- What stands at the distance given at a position. -/
def follow? {α : Type} (read : FlatData → Nat → Option α) (data : FlatData) (position : Nat) :
    Option α := do
  let distance ← number? 4 data position
  read data (position + distance)

/-- The positions of the items of a list, each of some width. -/
def positions? (width alignment : Nat) (data : FlatData) (position : Nat) : Option (List Nat) := do
  let count ← number? 4 data position
  let start := position + 4
  if start % alignment = 0 ∧ start + count * width ≤ data.size then
    some ((List.range count).map fun index => start + index * width)
  else none

/-- A list of numbers with sign. -/
def signedList? (width : Nat) (data : FlatData) (position : Nat) : Option (List Int) := do
  (← positions? width width data position).mapM (signed? width data)

/-- A list of records without slots, which may lie anywhere. -/
def records? {α : Type} (width : Nat) (read : Octets → α) (data : FlatData) (position : Nat) :
    Option (List α) := do
  return (← positions? width 1 data position).map fun start => read (slice data start width)

/-- A list of distances to what a reader reads. -/
def list? {α : Type} (read : FlatData → Nat → Option α) (data : FlatData) (position : Nat) :
    Option (List α) := do
  (← positions? 4 4 data position).mapM (follow? read data)

/-- A text, which is followed by a zero. -/
def text? (data : FlatData) (position : Nat) : Option String := do
  let length ← number? 4 data position
  let start := position + 4
  if data.size < start + length then none
  else
    let text ← Octets.toString? (slice data start length)
    if data[start + length]? = some 0 then some text else none

end Flat

/-- A table: where it is, and where its slots are listed. -/
structure FlatTable where
  data : FlatData
  position : Nat
  listing : Nat
  listingLength : Nat

namespace FlatTable

/-- The table at a position. The distance to the list of its slots goes backwards. -/
def read? (data : FlatData) (position : Nat) : Option FlatTable := do
  let distance ← Flat.signed? 4 data position
  let listing : Int := (position : Int) - distance
  if listing < 0 ∨ data.size ≤ listing.toNat then none
  else
    let length ← Flat.number? 2 data listing.toNat
    if length % 2 = 0 ∧ listing.toNat + length ≤ data.size then
      some ⟨data, position, listing.toNat, length⟩
    else none

/-- The first table of octets. -/
def root? (data : FlatData) : Option FlatTable := Flat.follow? read? data 0

/-- The position of a slot's contents; nothing when the slot is empty. -/
def slot? (table : FlatTable) (index : Nat) : Option (Option Nat) :=
  let entry := 4 + 2 * index
  if entry < table.listingLength then
    (Flat.number? 2 table.data (table.listing + entry)).map fun distance =>
      if distance = 0 then none else some (table.position + distance)
  else some none

/-- The contents of a slot, if it is not empty. -/
def part? {α : Type} (table : FlatTable) (index : Nat) (read : FlatData → Nat → Option α) :
    Option (Option α) := do
  match ← table.slot? index with
  | none => return none
  | some position => return some (← read table.data position)

/-- The contents of a slot, with what an empty slot stands for. -/
def partOr? {α : Type} (table : FlatTable) (index : Nat) (default : α)
    (read : FlatData → Nat → Option α) : Option α := do
  return (← table.part? index read).getD default

end FlatTable

end Columnar
