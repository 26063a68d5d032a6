import Columnar.Decimal.Layout
import Columnar.FieldType
import Columnar.Json.Raw
import Columnar.Time.Rfc3339

/-! Elements: what a present cell of each kind holds. Every kind has a zero, a text and an equality;
floats are equal as numbers, all other elements when they are the same. -/
namespace Columnar.Kind

/-- The elements of a kind. An enum element is an index into the texts of its field. -/
@[reducible] def Element : Kind → Type
  | int8 => Int8
  | int16 => Int16
  | int32 => Int32
  | int64 => Int64
  | uint8 => UInt8
  | uint16 => UInt16
  | uint32 => UInt32
  | uint64 => UInt64
  | float32 => Binary32
  | float64 => Binary64
  | string => String
  | bool => Bool
  | time => Instant
  | json => RawJson
  | enum => UInt16

/-- Whether two elements are the same, which for floats is more than being equal as numbers. -/
instance : (kind : Kind) → DecidableEq kind.Element
  | int8 | int16 | int32 | int64 | uint8 | uint16 | uint32 | uint64 | float32 | float64 | string
  | bool | time | json | enum => inferInstance

/-- The element that fills new cells. -/
def zero : (kind : Kind) → kind.Element
  | int8 => 0
  | int16 => 0
  | int32 => 0
  | int64 => 0
  | uint8 => 0
  | uint16 => 0
  | uint32 => 0
  | uint64 => 0
  | float32 => Binary32.zero
  | float64 => Binary64.zero
  | string => ""
  | bool => false
  | time => Instant.epoch
  | json => RawJson.null
  | enum => (0 : UInt16)

/-- Equality of elements. -/
def same : (kind : Kind) → kind.Element → kind.Element → Bool
  | int8, x, y => x == y
  | int16, x, y => x == y
  | int32, x, y => x == y
  | int64, x, y => x == y
  | uint8, x, y => x == y
  | uint16, x, y => x == y
  | uint32, x, y => x == y
  | uint64, x, y => x == y
  | float32, x, y => Binary32.sameNumber x y
  | float64, x, y => Binary64.sameNumber x y
  | string, x, y => x == y
  | bool, x, y => x == y
  | time, x, y => decide ((x : Instant) = y)
  | json, x, y => decide ((x : RawJson) = y)
  | enum, x, y => x == y

/-- The integer an element of an integer kind, or an index, stands for. -/
def integer? : (kind : Kind) → kind.Element → Option Int
  | int8, x => some (Int8.toInt x)
  | int16, x => some (Int16.toInt x)
  | int32, x => some (Int32.toInt x)
  | int64, x => some (Int64.toInt x)
  | uint8, x => some (UInt8.toNat x)
  | uint16, x => some (UInt16.toNat x)
  | uint32, x => some (UInt32.toNat x)
  | uint64, x => some (UInt64.toNat x)
  | enum, x => some (UInt16.toNat x)
  | _, _ => none

/-- The number an element of a numeric kind stands for; large integers are rounded. -/
def number? : (kind : Kind) → kind.Element → Option Binary64
  | float32, x => some (Binary64.ofBinary32 x)
  | float64, x => some x
  | enum, _ => none
  | kind, x => (integer? kind x).map Binary64.ofInt

/-- The text of an element. -/
def text : (kind : Kind) → kind.Element → String
  | float32, x => Binary32.text x
  | float64, x => Binary64.text x
  | string, x => x
  | bool, x => if x then "true" else "false"
  | time, x => Instant.rfc3339 x
  | json, x => RawJson.text x
  | kind, x => integerText ((integer? kind x).getD 0)

end Columnar.Kind
