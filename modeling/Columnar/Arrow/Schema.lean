import Columnar.Arrow.Entry
import Columnar.Arrow.Type
import Columnar.Error
import Columnar.Keyed

/-! Schemas from the tables of messages. A table may be in order and yet describe a type that does
not exist, such as an integer of seven bits. -/
namespace Columnar

/-- Reading Arrow data: nothing else can go wrong than what is wrong with columns in Arrow form. -/
abbrev ArrowRead (α : Type) := Except StorageFault α

/-- What cannot be, taken as a fault of its own. -/
def orImpossible {α : Type} : Option α → ArrowRead α
  | some value => .ok value
  | none => .error .impossible

/-- What is not in order. -/
def orUnreadable {α : Type} : Option α → ArrowRead α
  | some value => .ok value
  | none => .error .unreadable

/-- Pairs of texts as a finite map; a pair that lacks one of them is passed over. -/
def textMap (pairs : List TextPair) : List (String × String) :=
  pairs.foldl (fun texts pair =>
    match pair with
    | (some key, some value) => Keyed.insert key value texts
    | _ => texts) []

namespace TypeEntry

/-- The type of integers of a width. -/
def integerType? : TypeEntry → Option ArrowType
  | integer 8 true => some .int8
  | integer 16 true => some .int16
  | integer 32 true => some .int32
  | integer 64 true => some .int64
  | integer 8 false => some .uint8
  | integer 16 false => some .uint16
  | integer 32 false => some .uint32
  | integer 64 false => some .uint64
  | _ => none

/-- The unit of a code. -/
def unit? : Int → Option TimeUnit
  | 0 => some .second
  | 1 => some .millisecond
  | 2 => some .microsecond
  | 3 => some .nanosecond
  | _ => none

/-- A precision and a scale, if they are in range. -/
def decimal? (make : Nat → Int → ArrowType) (precision scale : Int) : Option ArrowType :=
  if 0 ≤ precision ∧ precision < 256 ∧ -128 ≤ scale ∧ scale < 128 then
    some (make precision.toNat scale)
  else none

/-- The only field of a list. -/
def only? : Option (List ArrowField) → Option ArrowField
  | some [field] => some field
  | _ => none

/-- The codes of the variants of a union, by default their positions. -/
def variants (codes : Option (List Int)) (fields : List ArrowField) : List (Int × ArrowField) :=
  match codes with
  | some codes => (codes.map fun code => withSignBit 1 (signPattern 1 code)).zip fields
  | none => fields.zipIdx.map fun (field, index) => (index, field)

/-- The type that a code, its table and the fields inside stand for. -/
def type? (entry : TypeEntry) (code : Nat) (children : Option (List ArrowField)) :
    Option ArrowType :=
  match code, entry with
  | 1, _ => some .null
  | 2, entry => entry.integerType?
  | 3, .floatingPoint 0 => some .float16
  | 3, .floatingPoint 1 => some .float32
  | 3, .floatingPoint 2 => some .float64
  | 4, _ => some .binary
  | 5, _ => some .utf8
  | 6, _ => some .boolean
  | 7, .decimal precision scale 128 => decimal? .decimal128 precision scale
  | 7, .decimal precision scale 256 => decimal? .decimal256 precision scale
  | 8, .date 0 => some .date32
  | 8, .date 1 => some .date64
  | 9, .time 0 32 => some (.time32 .second)
  | 9, .time 1 32 => some (.time32 .millisecond)
  | 9, .time 2 64 => some (.time64 .microsecond)
  | 9, .time 3 64 => some (.time64 .nanosecond)
  | 10, .timestamp unit zone => (unit? unit).map (.timestamp · zone)
  | 11, .interval 0 => some (.interval .yearMonth)
  | 11, .interval 1 => some (.interval .dayTime)
  | 11, .interval 2 => some (.interval .monthDayNano)
  | 12, _ => (only? children).map .list
  | 13, _ => some (.struct (children.getD []))
  | 14, .union 0 codes => some (.union (variants codes (children.getD [])) false)
  | 14, .union 1 codes => some (.union (variants codes (children.getD [])) true)
  | 15, .fixedSizeBinary size => some (.fixedSizeBinary size)
  | 16, .fixedSizeList size => (only? children).map (.fixedSizeList · size)
  | 17, .map sorted => (only? children).map (.map · sorted)
  | 18, .duration unit => (unit? unit).map .duration
  | 19, _ => some .largeBinary
  | 20, _ => some .largeUtf8
  | 21, _ => (only? children).map .largeList
  | 22, _ =>
    match children with
    | some [runEnds, values] => some (.runEndEncoded runEnds values)
    | _ => none
  | 23, _ => some .binaryView
  | 24, _ => some .utf8View
  | _, _ => none

end TypeEntry

mutual

/-- The field of an entry. A dictionary puts its index in front of the type of its values. -/
def FieldEntry.toField : FieldEntry → ArrowRead ArrowField
  | .mk name nullable code type dictionary children metadata => do
    let children ← match children with
      | none => .ok none
      | some entries => (fieldsOfEntries entries).map some
    let index ← match dictionary with
      | none => .ok none
      | some entry => (orImpossible (entry.index.bind TypeEntry.integerType?)).map some
    let name ← orImpossible name
    let type ← orImpossible (type.type? code children)
    return { name := name
             type := match index with
               | none => type
               | some index => .dictionary index type
             nullable := nullable
             dictionaryId := (dictionary.map (·.id)).getD 0
             ordered := (dictionary.map (·.ordered)).getD false
             metadata := textMap metadata }

def fieldsOfEntries : List FieldEntry → ArrowRead (List ArrowField)
  | [] => .ok []
  | entry :: rest => do
    let field ← entry.toField
    let rest ← fieldsOfEntries rest
    return field :: rest

end

/-- The schema of an entry. -/
def SchemaEntry.toSchema (entry : SchemaEntry) : ArrowRead ArrowSchema := do
  let fields ← orImpossible entry.fields
  return { fields := ← fieldsOfEntries fields, metadata := textMap entry.metadata }

/-- The type of the values of a dictionary inside a type, if the type belongs to it. -/
def ArrowType.valueType? : ArrowType → Option ArrowType
  | .dictionary _ value => some value
  | _ => none

mutual

/-- The fields of a dictionary among a field and the fields inside it. -/
def ArrowField.withDictionary (id : Int) : ArrowField → List ArrowField
  | ⟨name, type, nullable, dictionaryId, ordered, metadata⟩ =>
    (if type.valueType?.isSome ∧ dictionaryId = id then
      [⟨name, type, nullable, dictionaryId, ordered, metadata⟩]
    else []) ++ type.fieldsWithDictionary id

def ArrowType.fieldsWithDictionary (id : Int) : ArrowType → List ArrowField
  | .list item => item.withDictionary id
  | .largeList item => item.withDictionary id
  | .fixedSizeList item _ => item.withDictionary id
  | .map entries _ => entries.withDictionary id
  | .struct fields => fieldsWithDictionary id fields
  | .union variants _ => variantsWithDictionary id variants
  | .runEndEncoded runEnds values => runEnds.withDictionary id ++ values.withDictionary id
  | .dictionary _ value => value.fieldsWithDictionary id
  | _ => []

def fieldsWithDictionary (id : Int) : List ArrowField → List ArrowField
  | [] => []
  | field :: rest => field.withDictionary id ++ fieldsWithDictionary id rest

def variantsWithDictionary (id : Int) : List (Int × ArrowField) → List ArrowField
  | [] => []
  | (_, field) :: rest => field.withDictionary id ++ variantsWithDictionary id rest

end

end Columnar
