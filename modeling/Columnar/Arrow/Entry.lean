import Columnar.Flat.Reading

/-! The flat tables of Arrow messages as they stand in the octets: every slot that has a meaning,
found to be in order, but not yet asked whether the whole makes sense. -/
namespace Columnar

open Flat

/-- The table of a type, by the slots that differ from type to type. -/
inductive TypeEntry where
  | absent
  | plain
  | integer (bits : Int) (signed : Bool)
  | floatingPoint (precision : Int)
  | decimal (precision scale bits : Int)
  | date (unit : Int)
  | time (unit bits : Int)
  | timestamp (unit : Int) (zone : Option String)
  | interval (unit : Int)
  | duration (unit : Int)
  | fixedSizeBinary (size : Int)
  | fixedSizeList (size : Int)
  | map (sorted : Bool)
  | union (mode : Int) (codes : Option (List Int))
deriving DecidableEq, Repr

/-- The table of a dictionary encoding. -/
structure DictionaryEntry where
  id : Int
  index : Option TypeEntry
  ordered : Bool
deriving DecidableEq, Repr

/-- A pair of texts, either of which may be missing. -/
abbrev TextPair := Option String × Option String

/-- The table of a field. -/
inductive FieldEntry where
  | mk (name : Option String) (nullable : Bool) (code : Nat) (type : TypeEntry)
    (dictionary : Option DictionaryEntry) (children : Option (List FieldEntry))
    (metadata : List TextPair)

/-- The table of a schema. -/
structure SchemaEntry where
  byteOrder : Int
  fields : Option (List FieldEntry)
  metadata : List TextPair

/-- The table of a record batch: rows, nodes as length and count of nulls, buffers as offset and
length. -/
structure BatchEntry where
  rows : Int
  nodes : Option (List (Int × Int))
  buffers : Option (List (Int × Int))
  codec : Option Int
  viewCounts : List Int
deriving DecidableEq, Repr

/-- What a message is about. -/
inductive HeaderEntry where
  | none
  | schema (entry : SchemaEntry)
  | dictionary (id : Int) (batch : Option BatchEntry) (delta : Bool)
  | batch (entry : BatchEntry)
  | other

/-- The table of a message. -/
structure MessageEntry where
  version : Int
  header : HeaderEntry
  bodyLength : Int

/-- A block of a file: where it is, and how long its message and its body are. -/
structure BlockEntry where
  offset : Int
  messageLength : Int
  bodyLength : Int
deriving DecidableEq, Repr

/-- The table at the end of a file. -/
structure FooterEntry where
  version : Int
  schema : Option SchemaEntry
  dictionaries : List BlockEntry
  batches : Option (List BlockEntry)

/-- How deep tables may be nested. -/
def tableDepth : Nat := 64

/-- A table behind a distance. -/
def tableAt? {α : Type} (read : FlatTable → Option α) : FlatData → Nat → Option α :=
  follow? fun data position => do read (← FlatTable.read? data position)

/-- A list of tables behind a distance. -/
def tablesAt? {α : Type} (read : FlatTable → Option α) : FlatData → Nat → Option (List α) :=
  follow? (list? fun data position => do read (← FlatTable.read? data position))

def textPair? (table : FlatTable) : Option TextPair := do
  return (← table.part? 0 (follow? text?), ← table.part? 1 (follow? text?))

/-- Pairs of texts in a slot; an empty slot holds none. -/
def textPairs? (table : FlatTable) (index : Nat) : Option (List TextPair) :=
  table.partOr? index [] (tablesAt? textPair?)

namespace TypeEntry

def integer? (table : FlatTable) : Option TypeEntry := do
  return .integer (← table.partOr? 0 0 (signed? 4)) (← table.partOr? 1 false flag?)

/-- The table of a type of which the code is known. The units that an empty slot stands for differ
from type to type. -/
def ofTable? (code : Nat) (table : FlatTable) : Option TypeEntry := do
  match code with
  | 2 => integer? table
  | 3 => return .floatingPoint (← table.partOr? 0 0 (signed? 2))
  | 7 =>
    return .decimal (← table.partOr? 0 0 (signed? 4)) (← table.partOr? 1 0 (signed? 4))
      (← table.partOr? 2 128 (signed? 4))
  | 8 => return .date (← table.partOr? 0 1 (signed? 2))
  | 9 => return .time (← table.partOr? 0 1 (signed? 2)) (← table.partOr? 1 32 (signed? 4))
  | 10 =>
    return .timestamp (← table.partOr? 0 0 (signed? 2)) (← table.part? 1 (follow? text?))
  | 11 => return .interval (← table.partOr? 0 0 (signed? 2))
  | 14 =>
    return .union (← table.partOr? 0 0 (signed? 2)) (← table.part? 1 (follow? (signedList? 4)))
  | 15 => return .fixedSizeBinary (← table.partOr? 0 0 (signed? 4))
  | 16 => return .fixedSizeList (← table.partOr? 0 0 (signed? 4))
  | 17 => return .map (← table.partOr? 0 false flag?)
  | 18 => return .duration (← table.partOr? 0 1 (signed? 2))
  | _ => return .plain

end TypeEntry

/-- A table in two slots: a code, and the table that the code is for. Both are there or none. -/
def tagged? {α : Type} (table : FlatTable) (index : Nat) (absent : α)
    (known : Nat → Bool) (unknown : α) (read : Nat → FlatTable → Option α) :
    Option (Nat × α) := do
  match ← table.slot? index, ← table.slot? (index + 1) with
  | none, none => return (0, absent)
  | some codeAt, some tableAt =>
    let code ← number? 1 table.data codeAt
    if known code then return (code, ← tableAt? (read code) table.data tableAt)
    else return (code, unknown)
  | _, _ => none

def DictionaryEntry.ofTable? (table : FlatTable) : Option DictionaryEntry := do
  let id ← table.partOr? 0 0 (signed? 8)
  let index ← table.part? 1 (tableAt? TypeEntry.integer?)
  let ordered ← table.partOr? 2 false flag?
  let _ ← table.part? 3 (signed? 2)
  return { id, index, ordered }

/-- The table of a field with at most so many tables inside each other. -/
def FieldEntry.ofTable? : Nat → FlatTable → Option FieldEntry
  | 0, _ => none
  | depth + 1, table => do
    let name ← table.part? 0 (follow? text?)
    let nullable ← table.partOr? 1 false flag?
    let (code, type) ← tagged? table 2 .absent (fun code => 1 ≤ code && code ≤ 26) .plain
      TypeEntry.ofTable?
    let dictionary ← table.part? 4 (tableAt? DictionaryEntry.ofTable?)
    let children ← table.part? 5 (tablesAt? (FieldEntry.ofTable? depth))
    let metadata ← textPairs? table 6
    return .mk name nullable code type dictionary children metadata

/-- The table of a schema with at most so many tables inside each other. -/
def SchemaEntry.ofTable? (depth : Nat) (table : FlatTable) : Option SchemaEntry := do
  let byteOrder ← table.partOr? 0 0 (signed? 2)
  let fields ← table.part? 1 (tablesAt? (FieldEntry.ofTable? depth))
  let metadata ← textPairs? table 2
  let _ ← table.part? 3 (follow? (signedList? 8))
  return { byteOrder, fields, metadata }

/-- Two numbers of eight octets with sign. -/
def numberPair (octets : Octets) : Int × Int :=
  (withSignBit 8 (ofLittleEndian (octets.take 8)), withSignBit 8 (ofLittleEndian (octets.drop 8)))

namespace BatchEntry

/-- How the buffers of a batch are compressed. -/
def codec? (table : FlatTable) : Option Int := do
  let codec ← table.partOr? 0 0 (signed? 1)
  let _ ← table.part? 1 (signed? 1)
  return codec

def ofTable? (table : FlatTable) : Option BatchEntry := do
  let rows ← table.partOr? 0 0 (signed? 8)
  let nodes ← table.part? 1 (follow? (records? 16 numberPair))
  let buffers ← table.part? 2 (follow? (records? 16 numberPair))
  let codec ← table.part? 3 (tableAt? codec?)
  let viewCounts ← table.partOr? 4 [] (follow? (signedList? 8))
  return { rows, nodes, buffers, codec, viewCounts }

end BatchEntry

namespace HeaderEntry

/-- The header of a message of which the code is known. -/
def ofTable? (code : Nat) (table : FlatTable) : Option HeaderEntry := do
  match code with
  | 1 => return .schema (← SchemaEntry.ofTable? (tableDepth - 2) table)
  | 2 =>
    let id ← table.partOr? 0 0 (signed? 8)
    let batch ← table.part? 1 (tableAt? BatchEntry.ofTable?)
    return .dictionary id batch (← table.partOr? 2 false flag?)
  | 3 => return .batch (← BatchEntry.ofTable? table)
  | _ => return .other

end HeaderEntry

/-- The message in octets. -/
def MessageEntry.read? (octets : Octets) : Option MessageEntry := do
  let table ← FlatTable.root? octets.toArray
  let version ← table.partOr? 0 0 (signed? 2)
  let (code, header) ← tagged? table 1 .none (fun code => 1 ≤ code && code ≤ 5) .other
    HeaderEntry.ofTable?
  let bodyLength ← table.partOr? 3 0 (signed? 8)
  let _ ← textPairs? table 4
  return { version, header := if code = 0 then .none else header, bodyLength }

/-- A block of a file in its 24 octets. -/
def BlockEntry.ofOctets (octets : Octets) : BlockEntry where
  offset := withSignBit 8 (ofLittleEndian (octets.take 8))
  messageLength := withSignBit 4 (ofLittleEndian ((octets.drop 8).take 4))
  bodyLength := withSignBit 8 (ofLittleEndian (octets.drop 16))

/-- The table at the end of a file, in octets. -/
def FooterEntry.read? (octets : Octets) : Option FooterEntry := do
  let table ← FlatTable.root? octets.toArray
  let version ← table.partOr? 0 0 (signed? 2)
  let schema ← table.part? 1 (tableAt? (SchemaEntry.ofTable? (tableDepth - 2)))
  let dictionaries ← table.partOr? 2 [] (follow? (records? 24 BlockEntry.ofOctets))
  let batches ← table.part? 3 (follow? (records? 24 BlockEntry.ofOctets))
  let _ ← textPairs? table 4
  return { version, schema, dictionaries, batches }

end Columnar
