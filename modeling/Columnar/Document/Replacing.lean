import Columnar.Document.Reading
import Columnar.Frame.InPlace

/-! Cells of a frame that are replaced where they stand, by those of a data section. The columns of
the section are read one after the other and the frame is changed one field after the other, but no
field is changed before the last column has been read. -/
namespace Columnar.Frame

open InPlace (check state)

/-- The cells replaced by those of the data section of a document. -/
def replaceInPlace (octets : Octets) : InPlace Frame Unit := do
  let value ← check <|
    (Json.read octets).mapError fun fault => .document (.malformed (.malformed fault))
  let content ← check ((DocumentContent.ofJson value).mapError .document)
  match content.data with
  | none => throw (.document .noData)
  | some data =>
    let frame ← state
    let columns ← check (data.columnsOf frame.types)
    changeEach Field.withColumn 0 columns

end Columnar.Frame
