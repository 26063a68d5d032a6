import Columnar.Frame

/-! Frames as CSV text. A cell is put in quotes when it holds the delimiter, a quote or the end of a
line; quotes inside are doubled. A record of one empty cell is written as two quotes, so that it
differs from no record. -/
namespace Columnar

namespace Csv

/-- The quotation mark, the line feed that ends a record, and the carriage return. -/
def quote : UInt8 := 0x22
def lineFeed : UInt8 := 0x0A
def carriageReturn : UInt8 := 0x0D

/-- Whether a cell has to stand in quotes. -/
def needsQuotes (delimiter : UInt8) (cell : Octets) : Bool :=
  cell.any fun octet =>
    octet == delimiter || octet == quote || octet == lineFeed || octet == carriageReturn

/-- A cell in quotes, those inside it doubled. -/
def quoted (cell : Octets) : Octets :=
  quote :: cell.flatMap (fun octet => if octet = quote then [quote, quote] else [octet]) ++ [quote]

def cell (delimiter : UInt8) (content : Octets) : Octets :=
  if needsQuotes delimiter content then quoted content else content

/-- The cells of a record between delimiters. -/
def joined (delimiter : UInt8) (cells : List Octets) : Octets :=
  [delimiter].intercalate (cells.map (cell delimiter))

/-- One record with the line feed that ends it. -/
def record (delimiter : UInt8) (cells : List Octets) : Octets :=
  (if joined delimiter cells = [] then [quote, quote] else joined delimiter cells) ++ [lineFeed]

def records (delimiter : UInt8) (cells : List (List Octets)) : Octets :=
  cells.flatMap (record delimiter)

end Csv

/-- What CSV text of a frame begins with, and what stands between its cells. -/
structure CsvOptions where
  names : Bool := true
  types : Bool := false
  delimiter : UInt8 := 0x2C
deriving DecidableEq, Repr

namespace Frame

/-- The records of a frame: names and coarse types if they are wanted, then the rows. -/
def csvRecords (frame : Frame) (options : CsvOptions) (rows : Nat) : List (List String) :=
  (if options.names then [frame.fields.map Field.name] else [])
    ++ (if options.types then [frame.fields.map fun field => field.type.kind.coarse.name] else [])
    ++ Column.textRows rows (frame.fields.map Field.column)

/-- The octets of the CSV text of a frame. -/
def csvOctets (frame : Frame) (options : CsvOptions) : Except Error Octets := do
  let rows ← frame.rowCount
  return Csv.records options.delimiter
    ((frame.csvRecords options rows).map (·.map Octets.ofString))

/-- The CSV text of a frame. A delimiter outside ASCII gives no text. -/
def csv (frame : Frame) (options : CsvOptions) : Except Error String := do
  let octets ← frame.csvOctets options
  match octets.textBreak? with
  | some (.invalid length index) => .error (.storage (.invalidText length index))
  | some (.incomplete index) => .error (.storage (.incompleteText index))
  | none => .ok octets.toText

end Frame

end Columnar
