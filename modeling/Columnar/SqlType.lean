import Columnar.Error
import Columnar.Text.Letters

/-! Field types of SQL result columns. A database declares a column type as free text, and its
driver hands the values over in a host type. A declaration that is recognised decides; any other
leaves the decision to the host type. -/
namespace Columnar

/-- The host type in which a driver hands over the values of a column. -/
inductive ScanType where
  | int8 | int16 | int32 | int64
  | uint8 | uint16 | uint32 | uint64
  | float32 | float64
  | string | bytes | bool | time | any
deriving DecidableEq, Repr

namespace ScanType

def name : ScanType → String
  | int8 => "Int8" | int16 => "Int16" | int32 => "Int32" | int64 => "Int64"
  | uint8 => "UInt8" | uint16 => "UInt16" | uint32 => "UInt32" | uint64 => "UInt64"
  | float32 => "Float32" | float64 => "Float64"
  | string => "String" | bytes => "Bytes" | bool => "Bool" | time => "Time" | any => "Any"

def all : List ScanType :=
  [int8, int16, int32, int64, uint8, uint16, uint32, uint64, float32, float64, string, bytes, bool,
   time, any]

/-- Bytes are read as text; a driver that names no host type decides nothing. -/
def kind? : ScanType → Option Kind
  | int8 => some .int8 | int16 => some .int16 | int32 => some .int32 | int64 => some .int64
  | uint8 => some .uint8 | uint16 => some .uint16 | uint32 => some .uint32 | uint64 => some .uint64
  | float32 => some .float32 | float64 => some .float64
  | string | bytes => some .string
  | bool => some .bool
  | time => some .time
  | any => none

end ScanType

namespace SqlType

/-- A group of declared names with the kind they stand for, signed and unsigned. Types without a
sign have the same kind twice. -/
structure Declaration where
  names : List String
  signed : Kind
  unsigned : Kind

def declarations : List Declaration :=
  [⟨["TINYINT", "INT1"], .int8, .uint8⟩,
   ⟨["SMALLINT", "INT2"], .int16, .uint16⟩,
   ⟨["INT", "INTEGER", "MEDIUMINT", "INT4"], .int32, .uint32⟩,
   ⟨["BIGINT", "INT8"], .int64, .uint64⟩,
   ⟨["REAL", "FLOAT4"], .float32, .float32⟩,
   ⟨["FLOAT", "DOUBLE", "DOUBLE PRECISION", "FLOAT8", "DECIMAL", "NUMERIC"], .float64, .float64⟩,
   ⟨["BOOL", "BOOLEAN", "BIT"], .bool, .bool⟩,
   ⟨["DATE", "DATETIME", "DATETIME2", "TIMESTAMP", "TIMESTAMPTZ", "TIMESTAMP WITH TIME ZONE",
     "TIMESTAMP WITHOUT TIME ZONE"], .time, .time⟩,
   ⟨["CHAR", "VARCHAR", "NCHAR", "NVARCHAR", "TEXT", "UUID", "TIME"], .string, .string⟩,
   ⟨["JSON", "JSONB"], .json, .json⟩]

/-- The ending that makes a declaration unsigned. -/
def unsignedMark : List Char := " UNSIGNED".toList

/-- The text with every ending equal to the mark taken off. Each step makes the text shorter, so
its length bounds their number. -/
def withoutMark (text : List Char) : List Char :=
  go text.length text
where
  go : Nat → List Char → List Char
    | 0, text => text
    | steps + 1, text =>
      match Text.beforeSuffix? unsignedMark text with
      | some shorter => go steps shorter
      | none => text

/-- The part of a declaration before its arguments, in capitals and without outer blanks. What
follows the first opening parenthesis is not looked at. -/
def withoutArguments (declared : String) : List Char :=
  let capitals := (Text.trimChars declared.toList).map Char.toUpper
  Text.trimChars (capitals.takeWhile (· != '('))

/-- The kind a declaration stands for, if it is recognised. -/
def declaredKind? (declared : String) : Option Kind :=
  let base := withoutArguments declared
  let name := String.ofList (Text.trimChars (withoutMark base))
  (declarations.find? fun d => d.names.contains name).map fun d =>
    if (Text.beforeSuffix? unsignedMark base).isSome then d.unsigned else d.signed

/-- The field type of a result column; an error when neither side names one. -/
def fieldType (declared : String) (scan : ScanType) (nullable : Bool) : Except Error FieldType :=
  match (declaredKind? declared).orElse fun _ => scan.kind? with
  | some kind => .ok ⟨kind, nullable⟩
  | none =>
    .error (.unknownFieldType ("no field type for SQL column declared as '" ++ declared
      ++ "' scanned as " ++ scan.name))

end SqlType

end Columnar
