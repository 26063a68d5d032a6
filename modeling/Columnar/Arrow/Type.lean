import Columnar.Binary.Float
import Columnar.Decimal.Layout
import Columnar.FieldType
import Columnar.Text.Octets
import Columnar.Text.Quoted

/-! Arrow data types: what a column is said to hold, and in which of a few forms its values are
stored. Only some of the types have values that a frame can take; all of them have a name. -/
namespace Columnar

/-- The unit that times are counted in. -/
inductive TimeUnit where
  | second
  | millisecond
  | microsecond
  | nanosecond
deriving DecidableEq, Repr

/-- The parts of a calendar interval that are counted. -/
inductive IntervalUnit where
  | yearMonth
  | dayTime
  | monthDayNano
deriving DecidableEq, Repr

mutual

/-- An Arrow data type. -/
inductive ArrowType where
  | null
  | boolean
  | int8 | int16 | int32 | int64
  | uint8 | uint16 | uint32 | uint64
  | float16 | float32 | float64
  | timestamp (unit : TimeUnit) (zone : Option String)
  | date32 | date64
  | time32 (unit : TimeUnit)
  | time64 (unit : TimeUnit)
  | duration (unit : TimeUnit)
  | interval (unit : IntervalUnit)
  | binary | largeBinary | binaryView
  | fixedSizeBinary (size : Int)
  | utf8 | largeUtf8 | utf8View
  | list (item : ArrowField)
  | largeList (item : ArrowField)
  | fixedSizeList (item : ArrowField) (size : Int)
  | struct (fields : List ArrowField)
  | union (variants : List (Int × ArrowField)) (dense : Bool)
  | dictionary (key value : ArrowType)
  | decimal128 (precision : Nat) (scale : Int)
  | decimal256 (precision : Nat) (scale : Int)
  | map (entries : ArrowField) (sorted : Bool)
  | runEndEncoded (runEnds values : ArrowField)

/-- A named column of a schema, or a part of a nested one. -/
structure ArrowField where
  name : String
  type : ArrowType
  nullable : Bool
  /-- The dictionary that holds the values, when there is one. -/
  dictionaryId : Int
  ordered : Bool
  /-- Texts under keys, in the order of the keys. -/
  metadata : List (String × String)

end

/-- A schema: fields, and texts under keys. -/
structure ArrowSchema where
  fields : List ArrowField
  metadata : List (String × String)

def TimeUnit.name : TimeUnit → String
  | second => "Second"
  | millisecond => "Millisecond"
  | microsecond => "Microsecond"
  | nanosecond => "Nanosecond"

/-- Nanoseconds in a unit. -/
def TimeUnit.nanos : TimeUnit → Nat
  | second => 1000000000
  | millisecond => 1000000
  | microsecond => 1000
  | nanosecond => 1

def IntervalUnit.name : IntervalUnit → String
  | yearMonth => "YearMonth"
  | dayTime => "DayTime"
  | monthDayNano => "MonthDayNano"

/-- A name with its parts in parentheses. -/
private def applied (name : String) (parts : List String) : String :=
  name ++ "(" ++ String.intercalate ", " parts ++ ")"

/-- Texts between brackets. -/
private def bracketed (parts : List String) : String :=
  "[" ++ String.intercalate ", " parts ++ "]"

mutual

/-- The name of a type, with everything that belongs to it. -/
def ArrowType.name : ArrowType → String
  | .null => "Null"
  | .boolean => "Boolean"
  | .int8 => "Int8"
  | .int16 => "Int16"
  | .int32 => "Int32"
  | .int64 => "Int64"
  | .uint8 => "UInt8"
  | .uint16 => "UInt16"
  | .uint32 => "UInt32"
  | .uint64 => "UInt64"
  | .float16 => "Float16"
  | .float32 => "Float32"
  | .float64 => "Float64"
  | .timestamp unit zone =>
    applied "Timestamp" [unit.name, match zone with
      | none => "None"
      | some zone => applied "Some" [Text.quoted zone]]
  | .date32 => "Date32"
  | .date64 => "Date64"
  | .time32 unit => applied "Time32" [unit.name]
  | .time64 unit => applied "Time64" [unit.name]
  | .duration unit => applied "Duration" [unit.name]
  | .interval unit => applied "Interval" [unit.name]
  | .binary => "Binary"
  | .largeBinary => "LargeBinary"
  | .binaryView => "BinaryView"
  | .fixedSizeBinary size => applied "FixedSizeBinary" [integerText size]
  | .utf8 => "Utf8"
  | .largeUtf8 => "LargeUtf8"
  | .utf8View => "Utf8View"
  | .list item => applied "List" [item.text]
  | .largeList item => applied "LargeList" [item.text]
  | .fixedSizeList item size => applied "FixedSizeList" [item.text, integerText size]
  | .struct fields => applied "Struct" [bracketed (fieldTexts fields)]
  | .union variants dense =>
    applied "Union" [bracketed (variantTexts variants), if dense then "Dense" else "Sparse"]
  | .dictionary key value => applied "Dictionary" [key.name, value.name]
  | .decimal128 precision scale =>
    applied "Decimal128" [integerText precision, integerText scale]
  | .decimal256 precision scale =>
    applied "Decimal256" [integerText precision, integerText scale]
  | .map entries sorted => applied "Map" [entries.text, if sorted then "true" else "false"]
  | .runEndEncoded runEnds values => applied "RunEndEncoded" [runEnds.text, values.text]

/-- The text of a part of a nested type. -/
def ArrowField.text : ArrowField → String
  | ⟨name, type, nullable, dictionaryId, ordered, metadata⟩ =>
    "Field \x7b name: " ++ Text.quoted name ++ ", data_type: " ++ type.name ++ ", nullable: "
      ++ (if nullable then "true" else "false") ++ ", dict_id: " ++ integerText dictionaryId
      ++ ", dict_is_ordered: " ++ (if ordered then "true" else "false") ++ ", metadata: \x7b"
      ++ String.intercalate ", "
        (metadata.map fun (key, value) => Text.quoted key ++ ": " ++ Text.quoted value)
      ++ "\x7d \x7d"

def fieldTexts : List ArrowField → List String
  | [] => []
  | field :: rest => field.text :: fieldTexts rest

def variantTexts : List (Int × ArrowField) → List String
  | [] => []
  | (code, field) :: rest =>
    applied "" [integerText code, field.text] :: variantTexts rest

end

/-- How the values of a column are stored. -/
inductive Storage where
  | int8 | int16 | int32 | int64
  | uint8 | uint16 | uint32 | uint64
  | float32 | float64
  | text
  | truth
  | octets
  | other
deriving DecidableEq, Repr

/-- A stored value. Of a form that is not known here, only that there is a value. -/
@[reducible] def Storage.Slot : Storage → Type
  | int8 => Int8
  | int16 => Int16
  | int32 => Int32
  | int64 => Int64
  | uint8 => UInt8
  | uint16 => UInt16
  | uint32 => UInt32
  | uint64 => UInt64
  | float32 => Binary32
  | float64 => Binary64
  | text => String
  | truth => Bool
  | octets => Octets
  | other => Unit

/-- How the values of a type are stored. Times are counts of their unit. -/
@[reducible] def ArrowType.storage : ArrowType → Storage
  | .boolean => .truth
  | .int8 => .int8
  | .int16 => .int16
  | .int32 => .int32
  | .int64 => .int64
  | .uint8 => .uint8
  | .uint16 => .uint16
  | .uint32 => .uint32
  | .uint64 => .uint64
  | .float32 => .float32
  | .float64 => .float64
  | .timestamp _ _ => .int64
  | .binary | .largeBinary => .octets
  | .utf8 | .largeUtf8 => .text
  | _ => .other

/-- The type that the elements of a kind are stored as. -/
@[reducible] def Kind.arrowType : Kind → ArrowType
  | int8 => .int8
  | int16 => .int16
  | int32 => .int32
  | int64 => .int64
  | uint8 => .uint8
  | uint16 => .uint16
  | uint32 => .uint32
  | uint64 => .uint64
  | float32 => .float32
  | float64 => .float64
  | string => .utf8
  | bool => .boolean
  | time => .timestamp .nanosecond none
  | json => .binary
  | enum => .uint16

end Columnar
