import Columnar.BufferPool

/-! Documents of a frame that is read many times: written once, with every choice of sections ready
to be handed out. -/
namespace Columnar

/-- The sections of a frame and the documents put together from them. -/
structure DocumentCache where
  schema : Octets
  data : Octets
  all : Octets
  schemaOnly : Octets
  dataOnly : Octets
deriving DecidableEq, Repr

namespace DocumentCache

/-- The document put together from the text of its sections. -/
def assemble (schema data : Option Octets) : Octets :=
  [0x7B]
    ++ (match schema with
      | some schema => Json.ascii "\"schema\":".toList ++ schema
      | none => [])
    ++ (match data with
      | some data =>
        (if schema.isSome then [0x2C] else []) ++ Json.ascii "\"data\":".toList ++ data
      | none => [])
    ++ [0x7D]

/-- The documents put together from two sections. -/
def ofSections (schema data : Octets) : DocumentCache where
  schema := schema
  data := data
  all := assemble (some schema) (some data)
  schemaOnly := assemble (some schema) none
  dataOnly := assemble none (some data)

/-- The documents of a frame, its sections written one after the other in a buffer of a pool. -/
def ofFrame (pool : BufferPool) (frame : Frame) : Except Error DocumentCache × BufferPool :=
  pool.withLease do
    frame.writeSchema
    let schema ← BufferWriter.contents
    BufferWriter.clear
    frame.writeData
    let data ← BufferWriter.contents
    return ofSections schema data

/-- The document with the wanted sections. -/
def octets (cache : DocumentCache) : FrameParts → Octets
  | .all => cache.all
  | .schemaOnly => cache.schemaOnly
  | .dataOnly => cache.dataOnly

end DocumentCache

end Columnar
