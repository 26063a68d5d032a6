import Columnar.Arrow.Batch
import Columnar.Arrow.Schema

/-! Columns in the body of a message. A batch lists a node for every column, with its length, and the
buffers of all columns one after the other; the columns take what belongs to them from the front of
both lists. The first buffer of a column has one bit per row, which tells whether there is a
value. -/
namespace Columnar

/-- Nodes and buffers of a batch that have not been taken yet. -/
structure BodyCursor where
  /-- The rows that the batch promises. -/
  rows : Nat
  body : FlatData
  codec : Option Int
  nodes : List (Int × Int)
  buffers : List (Int × Int)
  viewCounts : List Int

/-- Taking something from the front of the lists. -/
abbrev TakeBody (α : Type) := StateT BodyCursor ArrowRead α

namespace TakeBody

def fail {α : Type} (fault : StorageFault) : TakeBody α := StateT.lift (.error fault)

/-- The length of the next node and its count of nulls. -/
def node : TakeBody (Int × Int) := do
  let cursor ← get
  match cursor.nodes with
  | [] => fail .unreadable
  | node :: nodes =>
    set { cursor with nodes }
    return node

/-- The contents of a buffer that may be compressed. A compressed buffer begins with its length, or
with minus one when it is not compressed after all; no way of compression is known here. -/
def decompressed (contents : Octets) : ArrowRead Octets :=
  if contents.length < 8 then .error .impossible
  else
    let length := withSignBit 8 (ofLittleEndian (contents.take 8))
    if length = 0 then .ok []
    else if length = -1 then .ok (contents.drop 8)
    else .error .unreadable

/-- The contents of the next buffer. -/
def buffer : TakeBody Octets := do
  let cursor ← get
  match cursor.buffers with
  | [] => fail .impossible
  | (offset, length) :: buffers =>
    set { cursor with buffers }
    if offset < 0 ∨ length < 0 ∨ cursor.body.size < offset.toNat + length.toNat then
      fail .impossible
    else
      let contents := Flat.slice cursor.body offset.toNat length.toNat
      if contents.isEmpty ∨ cursor.codec.isNone then return contents
      else StateT.lift (decompressed contents)

/-- So many buffers. -/
def takeBuffers : Nat → TakeBody (List Octets)
  | 0 => return []
  | count + 1 => do
    let first ← buffer
    let rest ← takeBuffers count
    return first :: rest

/-- How many buffers the values of the next column of views have. -/
def viewCount : TakeBody Nat := do
  let cursor ← get
  match cursor.viewCounts with
  | [] => fail .unreadable
  | count :: viewCounts =>
    set { cursor with viewCounts }
    return count.toNat

end TakeBody

/-- Octets cut into pieces of a width, so many of them. -/
def pieces (width : Nat) : Nat → Octets → List Octets
  | 0, _ => []
  | count + 1, octets => octets.take width :: pieces width count (octets.drop width)

/-- The bits of octets, the lowest of each octet first, so many of them. -/
def bits (count : Nat) (octets : Octets) : List Bool :=
  (octets.flatMap fun octet => (List.range 8).map fun place => octet.toNat.testBit place).take
    count

/-- The values of a fixed width in a buffer. -/
def fixedValues {α : Type} (width : Nat) (ofPattern : Nat → α) (count : Nat) (buffer : Octets) :
    ArrowRead (List α) :=
  if buffer.length < count * width then .error .unreadable
  else .ok ((pieces width count buffer).map fun piece => ofPattern (ofLittleEndian piece))

/-- The truth values in a buffer. -/
def truthValues (count : Nat) (buffer : Octets) : ArrowRead (List Bool) :=
  if buffer.length * 8 < count then .error .unreadable else .ok (bits count buffer)

/-- The values between consecutive offsets into a buffer. -/
def valuesBetween (values : FlatData) : List Int → ArrowRead (List (Nat × Nat))
  | first :: second :: rest => do
    if first < 0 ∨ second < first ∨ values.size < second.toNat then .error .unreadable
    else
      let others ← valuesBetween values (second :: rest)
      return (first.toNat, second.toNat) :: others
  | _ => .ok []

/-- The ranges of values of any length. A column without rows may have no offsets at all. -/
def ranges (width count : Nat) (offsets : Octets) (values : FlatData) :
    ArrowRead (List (Nat × Nat)) := do
  if count = 0 ∧ offsets.isEmpty then return []
  else
    let offsets ← fixedValues width (withSignBit width) (count + 1) offsets
    match offsets with
    | [only] => if only < 0 ∨ values.size < only.toNat then .error .unreadable else return []
    | offsets => valuesBetween values offsets

/-- Octets of any length. -/
def octetValues (width count : Nat) (offsets values : Octets) : ArrowRead (List Octets) := do
  let values := values.toArray
  let found ← ranges width count offsets values
  return found.map fun (first, last) => Flat.slice values first (last - first)

/-- Whether a position is not inside a character of text. -/
def isBoundary (values : FlatData) (position : Nat) : Bool :=
  match values[position]? with
  | none => true
  | some octet => octet < 0x80 || 0xC0 ≤ octet

/-- Texts of any length. No text may end inside a character. -/
def textValues (width count : Nat) (offsets values : Octets) : ArrowRead (List String) := do
  let whole := values.toString?.isSome
  let values := values.toArray
  let found ← ranges width count offsets values
  found.mapM fun (first, last) => do
    if whole && !(isBoundary values first && isBoundary values last) then .error .unreadable
    else orUnreadable (Flat.slice values first (last - first)).toString?

/-- The values under their bits; a value without its bit is not there. Without nulls the bits do not
count. -/
def withValidity {α : Type} (count : Nat) (nulls : Int) (validity : Octets) (values : List α) :
    List (Option α) :=
  if nulls ≤ 0 then values.map some
  else List.zipWith (fun there value => if there then some value else none)
    (bits count validity) values

/-- The rows of a column: those that its node promises, each with its value or without. -/
def rowValues {α : Type} (length nulls : Int) (validity : Octets)
    (read : Nat → ArrowRead (List α)) : ArrowRead (List (Option α)) := do
  if 0 < nulls ∧ (length < 0 ∨ (validity.length : Int) * 8 < length) then .error .impossible
  else if length < 0 then .error .unreadable
  else
    let values ← read length.toNat
    return withValidity length.toNat nulls validity values

/-- Values of a fixed size, which have one buffer. -/
def takeFixed {α : Type} (read : Nat → Octets → ArrowRead (List α)) :
    TakeBody (List (Option α)) := do
  let (length, nulls) ← TakeBody.node
  let validity ← TakeBody.buffer
  let values ← TakeBody.buffer
  StateT.lift (rowValues length nulls validity fun rows => read rows values)

/-- Values of any length, which have a buffer of offsets and one of contents. -/
def takeVariable {α : Type} (read : Nat → Octets → Octets → ArrowRead (List α)) :
    TakeBody (List (Option α)) := do
  let (length, nulls) ← TakeBody.node
  let validity ← TakeBody.buffer
  let offsets ← TakeBody.buffer
  let values ← TakeBody.buffer
  StateT.lift (rowValues length nulls validity fun rows => read rows offsets values)

/-- What a column whose values are not known here takes from the lists. -/
inductive BodyPart where
  | node
  | buffer
  /-- A buffer that only the older versions of the format have. -/
  | formerBuffer
  | views
  | empty
  | dictionary (id : Int)

mutual

/-- What a column of a type takes from the lists, in order. -/
def ArrowType.parts (dictionaryId : Int) : ArrowType → List BodyPart
  | .null => [.empty]
  | .utf8View | .binaryView => [.views]
  | .utf8 | .largeUtf8 | .binary | .largeBinary => [.node, .buffer, .buffer, .buffer]
  | .list item | .largeList item | .map item _ => [.node, .buffer, .buffer] ++ item.parts
  | .fixedSizeList item _ => [.node, .buffer] ++ item.parts
  | .struct fields => [.node, .buffer] ++ fieldParts fields
  | .runEndEncoded runEnds values => [.node] ++ runEnds.parts ++ values.parts
  | .union variants dense =>
    [.node, .formerBuffer, .buffer] ++ (if dense then [.buffer] else []) ++ variantParts variants
  | .dictionary _ _ => [.node, .buffer, .buffer, .dictionary dictionaryId]
  | _ => [.node, .buffer, .buffer]

def ArrowField.parts : ArrowField → List BodyPart
  | ⟨_, type, _, dictionaryId, _, _⟩ => type.parts dictionaryId

def fieldParts : List ArrowField → List BodyPart
  | [] => []
  | field :: rest => field.parts ++ fieldParts rest

def variantParts : List (Int × ArrowField) → List BodyPart
  | [] => []
  | (_, field) :: rest => field.parts ++ variantParts rest

end

/-- What is known of the messages before a batch: the version of the format, and the dictionaries
that have been read. -/
structure BodyContext where
  version : Int
  dictionaries : List Int

/-- One part taken; the lengths and counts of nulls of the nodes are kept. -/
def BodyPart.take (context : BodyContext) : BodyPart → TakeBody (List (Int × Int))
  | node => return [← TakeBody.node]
  | buffer => do
    let _ ← TakeBody.buffer
    return []
  | formerBuffer => do
    if context.version < 4 then
      let _ ← TakeBody.buffer
    return []
  | views => do
    let _ ← TakeBody.takeBuffers ((← TakeBody.viewCount) + 2)
    return [← TakeBody.node]
  | empty => do
    let (length, nulls) ← TakeBody.node
    if length = nulls then return [(length, 0)] else TakeBody.fail .unreadable
  | dictionary id =>
    if context.dictionaries.contains id then return [] else TakeBody.fail .unreadable

/-- How many octets a value has, in types that are not known here otherwise. -/
def ArrowType.width? : ArrowType → Option Nat
  | .float16 => some 2
  | .date32 | .time32 _ | .interval .yearMonth => some 4
  | .date64 | .time64 _ | .duration _ | .interval .dayTime => some 8
  | .interval .monthDayNano | .decimal128 .. => some 16
  | .decimal256 .. => some 32
  | .fixedSizeBinary size => some size.toNat
  | _ => none

/-- The rows of a column of which the values are not known here; only its first node counts. Of too
many rows only one too many is kept. -/
def takeOther (context : BodyContext) (parts : List BodyPart) : TakeBody (List (Option Unit)) := do
  let limit := (← get).rows + 1
  let nodes ← parts.mapM (BodyPart.take context)
  match nodes.flatten with
  | [] => TakeBody.fail .unreadable
  | (length, nulls) :: _ =>
    if length < 0 then TakeBody.fail .unreadable
    else
      let rows := min length.toNat limit
      let absent := min nulls.toNat rows
      return List.replicate (rows - absent) (some ()) ++ List.replicate absent none

/-- The values of a column, taken from the lists. -/
def takeSlots (context : BodyContext) (dictionaryId : Int) : (type : ArrowType) →
    TakeBody (List (Option type.storage.Slot))
  | .int8 => takeFixed (fixedValues 1 fun n => Int8.ofInt (withSignBit 1 n))
  | .int16 => takeFixed (fixedValues 2 fun n => Int16.ofInt (withSignBit 2 n))
  | .int32 => takeFixed (fixedValues 4 fun n => Int32.ofInt (withSignBit 4 n))
  | .int64 => takeFixed (fixedValues 8 fun n => Int64.ofInt (withSignBit 8 n))
  | .uint8 => takeFixed (fixedValues 1 UInt8.ofNat)
  | .uint16 => takeFixed (fixedValues 2 UInt16.ofNat)
  | .uint32 => takeFixed (fixedValues 4 UInt32.ofNat)
  | .uint64 => takeFixed (fixedValues 8 UInt64.ofNat)
  | .float32 => takeFixed (fixedValues 4 fun n => Binary32.mk (UInt32.ofNat n))
  | .float64 => takeFixed (fixedValues 8 fun n => Binary64.mk (UInt64.ofNat n))
  | .timestamp _ _ => takeFixed (fixedValues 8 fun n => Int64.ofInt (withSignBit 8 n))
  | .boolean => takeFixed truthValues
  | .utf8 => takeVariable (textValues 4)
  | .largeUtf8 => takeVariable (textValues 8)
  | .binary => takeVariable (octetValues 4)
  | .largeBinary => takeVariable (octetValues 8)
  | type =>
    if unknown : type.storage = .other then
      unknown ▸ match type.width? with
        | some width => takeFixed (fixedValues width fun _ => ())
        | none => takeOther context (type.parts dictionaryId)
    else TakeBody.fail .unreadable

/-- The columns of fields, taken one after the other. -/
def takeColumns (context : BodyContext) (fields : List ArrowField) : TakeBody (List ArrowColumn) :=
  fields.mapM fun field => do
    return ⟨field, ← takeSlots context field.dictionaryId field.type⟩

/-- The batch of a schema in a body. All columns have the length of the batch, those that may not
lack values have all of them, and no count of views is left over. -/
def BatchEntry.toBatch (entry : BatchEntry) (schema : ArrowSchema) (context : BodyContext)
    (body : FlatData) : ArrowRead ArrowBatch := do
  let buffers ← orUnreadable entry.buffers
  let nodes ← orUnreadable entry.nodes
  match entry.codec with
  | none | some 0 | some 1 => pure ()
  | some _ => throw .unreadable
  let start : BodyCursor :=
    ⟨entry.rows.toNat, body, entry.codec, nodes, buffers, entry.viewCounts⟩
  let (columns, rest) ← (takeColumns context schema.fields).run start
  if !rest.viewCounts.isEmpty then throw .impossible
  else if entry.rows < 0 ∨ columns.any (fun column => column.size != entry.rows.toNat) then
    throw .unreadable
  else if columns.any fun column => !column.field.nullable && column.hasNull then
    throw .unreadable
  else return { metadata := schema.metadata, rows := entry.rows.toNat, columns }

end Columnar
