import Columnar.Arrow.Body

/-! Arrow data as octets, in either of two layouts. A stream is a sequence of messages, each with its
length in front: a schema first, then batches and the dictionaries that they need. A file holds the
same messages, and at its end a table that says where they are. -/
namespace Columnar

/-- A schema and the batches of it. -/
structure ArrowTable where
  schema : ArrowSchema
  batches : List ArrowBatch

/-- The octets in front of the length of a message, in the newer versions of the format. -/
def continuationMark : Octets := [0xFF, 0xFF, 0xFF, 0xFF]

/-- The octets that a file begins and ends with. -/
def fileMagic : Octets := Octets.ofString "ARROW1"

/-- What has been read before a batch: the schema, and the dictionaries. -/
structure ArrowContext where
  schema : ArrowSchema
  dictionaries : List Int

namespace ArrowContext

def bodyContext (context : ArrowContext) (version : Int) : BodyContext :=
  ⟨version, context.dictionaries⟩

/-- The values of a dictionary must be a column of the type that some field says. -/
def withDictionary (context : ArrowContext) (version id : Int) (batch : Option BatchEntry)
    (delta : Bool) (body : FlatData) : ArrowRead ArrowContext := do
  if delta then throw .unreadable
  else match (fieldsWithDictionary id context.schema.fields).head? with
    | none => throw .unreadable
    | some field =>
      let value ← orUnreadable field.type.valueType?
      let values : ArrowField := ⟨"", value, true, 0, false, []⟩
      let batch ← orImpossible batch
      let _ ← batch.toBatch ⟨[values], []⟩ (context.bodyContext version) body
      return { context with dictionaries := id :: context.dictionaries }

end ArrowContext

namespace ArrowStream

/-- The length in front of a message and the octets after it; nothing at the end of the stream. -/
def lengthAhead? (octets : Octets) : ArrowRead (Option (Int × Octets)) :=
  if octets.length < 4 then .ok none
  else if octets.take 4 ≠ continuationMark then
    .ok (some (withSignBit 4 (ofLittleEndian (octets.take 4)), octets.drop 4))
  else if octets.length < 8 then .error .unreadable
  else .ok (some (withSignBit 4 (ofLittleEndian ((octets.drop 4).take 4)), octets.drop 8))

/-- So many octets, and those after them. -/
def split (length : Int) (octets : Octets) : ArrowRead (Octets × Octets) :=
  if length < 0 then .error .impossible
  else if octets.length < length.toNat then .error .unreadable
  else .ok (octets.take length.toNat, octets.drop length.toNat)

/-- A message of a length. -/
def message (length : Int) (octets : Octets) : ArrowRead (MessageEntry × Octets) := do
  let (contents, rest) ← split length octets
  return (← orUnreadable (MessageEntry.read? contents), rest)

/-- The batches of the messages to come, of which there are at most so many. -/
def batches : Nat → ArrowContext → Octets → ArrowRead (List ArrowBatch)
  | 0, _, _ => .ok []
  | bound + 1, context, octets => do
    match ← lengthAhead? octets with
    | none | some (0, _) => return []
    | some (length, octets) =>
      let (entry, octets) ← message length octets
      match entry.header with
      | .none => return []
      | .schema _ | .other => throw .unreadable
      | .dictionary id batch delta =>
        let (body, octets) ← split entry.bodyLength octets
        let context ← context.withDictionary entry.version id batch delta body.toArray
        batches bound context octets
      | .batch batch =>
        let (body, octets) ← split entry.bodyLength octets
        let first ← batch.toBatch context.schema (context.bodyContext entry.version) body.toArray
        let rest ← batches bound context octets
        return first :: rest

/-- The table of a stream. -/
def read (octets : Octets) : ArrowRead ArrowTable := do
  match ← lengthAhead? octets with
  | none => throw .unreadable
  | some (length, octets) =>
    let (entry, octets) ← message length octets
    match entry.header with
    | .schema entry =>
      let schema ← entry.toSchema
      let batches ← batches octets.length ⟨schema, []⟩ octets
      return { schema, batches }
    | _ => throw .unreadable

end ArrowStream

namespace ArrowFile

/-- The message of a block and its body. -/
def block (data : FlatData) (version : Int) (entry : BlockEntry) :
    ArrowRead (MessageEntry × FlatData) := do
  if entry.messageLength < 0 ∨ entry.bodyLength < 0 then throw .impossible
  else
    let length := entry.messageLength.toNat + entry.bodyLength.toNat
    if length ≠ 0 ∧ (entry.offset < 0 ∨ data.size < entry.offset.toNat + length) then
      throw .unreadable
    else
      let contents := Flat.slice data entry.offset.toNat length
      let marked := contents.take 4 = continuationMark
      if length < 4 ∨ (marked ∧ length < 8) then throw .impossible
      else
        let message ← orUnreadable (MessageEntry.read? (contents.drop (if marked then 8 else 4)))
        if version ≠ 0 ∧ message.version ≠ version then throw .unreadable
        else return (message, (contents.drop entry.messageLength.toNat).toArray)

/-- The dictionaries of blocks. -/
def dictionaries (data : FlatData) (version : Int) :
    ArrowContext → List BlockEntry → ArrowRead ArrowContext
  | context, [] => .ok context
  | context, entry :: rest => do
    let (message, body) ← block data version entry
    match message.header with
    | .dictionary id batch delta =>
      let context ← context.withDictionary message.version id batch delta body
      dictionaries data version context rest
    | _ => throw .unreadable

/-- The batches of blocks. -/
def batches (data : FlatData) (version : Int) (context : ArrowContext) :
    List BlockEntry → ArrowRead (List ArrowBatch)
  | [] => .ok []
  | entry :: rest => do
    let (message, body) ← block data version entry
    match message.header with
    | .none => return []
    | .batch batch =>
      let first ← batch.toBatch context.schema (context.bodyContext message.version) body
      let rest ← batches data version context rest
      return first :: rest
    | _ => throw .unreadable

/-- The table at the end of a file; its length and the magic come last. -/
def footer (octets : Octets) : ArrowRead FooterEntry := do
  let size := octets.length
  let ending := octets.drop (size - 10)
  if size < 10 ∨ ending.drop 4 ≠ fileMagic then throw .unreadable
  else
    let length := withSignBit 4 (ofLittleEndian (ending.take 4))
    if length < 0 ∨ size < 10 + length.toNat then throw .unreadable
    else
      let contents := (octets.drop (size - 10 - length.toNat)).take length.toNat
      orUnreadable (FooterEntry.read? contents)

/-- The table of a file. -/
def read (octets : Octets) : ArrowRead ArrowTable := do
  let entry ← footer octets
  let blocks ← orUnreadable entry.batches
  let schema ← orImpossible entry.schema
  if schema.byteOrder ≠ 0 then throw .unreadable
  else
    let schema ← schema.toSchema
    let data := octets.toArray
    let context ← dictionaries data entry.version ⟨schema, []⟩ entry.dictionaries
    let batches ← batches data entry.version context blocks
    return { schema, batches }

end ArrowFile

namespace ArrowTable

/-- The table of octets in the layout that they have. -/
def read (octets : Octets) : ArrowRead ArrowTable :=
  if octets.take fileMagic.length = fileMagic then ArrowFile.read octets
  else ArrowStream.read octets

/-- All batches as one. -/
def batch (table : ArrowTable) : ArrowBatch :=
  match table.batches with
  | [only] => only
  | batches => ArrowBatch.concat table.schema batches

end ArrowTable

end Columnar
