import Columnar.Text.Blank

/-! What the elements of a column may be: fifteen kinds, each with or without nulls. A field type
has one canonical name, with a star in front when nulls are allowed, and a few older names that
are still read. -/
namespace Columnar

/-- The kind of a single element. -/
inductive Kind where
  | int8 | int16 | int32 | int64
  | uint8 | uint16 | uint32 | uint64
  | float32 | float64
  | string | bool | time | json | enum
deriving DecidableEq, Repr

/-- The coarse groups of kinds that a reader of any origin understands. -/
inductive CoarseType where
  | time | number | bool | string | other
deriving DecidableEq, Repr

/-- The element kind of a column together with whether nulls may stand in it. -/
structure FieldType where
  kind : Kind
  nullable : Bool
deriving DecidableEq, Repr

namespace Kind

def all : List Kind :=
  [int8, int16, int32, int64, uint8, uint16, uint32, uint64, float32, float64, string, bool, time,
   json, enum]

def name : Kind → String
  | int8 => "int8" | int16 => "int16" | int32 => "int32" | int64 => "int64"
  | uint8 => "uint8" | uint16 => "uint16" | uint32 => "uint32" | uint64 => "uint64"
  | float32 => "float32" | float64 => "float64"
  | string => "string" | bool => "bool" | time => "time" | json => "json" | enum => "enum"

/-- Floating point kinds. -/
def isFloat : Kind → Bool
  | float32 | float64 => true
  | _ => false

/-- Integers and floats. An index into a table of texts is not a number. -/
def isNumeric : Kind → Bool
  | int8 | int16 | int32 | int64 | uint8 | uint16 | uint32 | uint64 | float32 | float64 => true
  | _ => false

def coarse : Kind → CoarseType
  | time => .time
  | bool => .bool
  | string => .string
  | json | enum => .other
  | _ => .number

end Kind

namespace FieldType

/-- The type of the same kind that allows nulls. -/
def allowingNull (type : FieldType) : FieldType := { type with nullable := true }

/-- The type of the same kind that allows no nulls. -/
def withoutNull (type : FieldType) : FieldType := { type with nullable := false }

/-- Every field type, each kind without nulls followed by the same kind with them. -/
def all : List FieldType :=
  Kind.all.flatMap fun kind => [⟨kind, false⟩, ⟨kind, true⟩]

def name (type : FieldType) : String :=
  if type.nullable then "*" ++ type.kind.name else type.kind.name

/-- Older names of four kinds. -/
def formerKind? : String → Option Kind
  | "int" => some .int64
  | "double" => some .float64
  | "time.Time" => some .time
  | "json.RawMessage" => some .json
  | _ => none

/-- The type of a canonical name, or of an older name with or without a star. -/
def ofName? (name : String) : Option FieldType :=
  match all.find? (·.name == name) with
  | some type => some type
  | none =>
    match name.toList with
    | '*' :: base => (formerKind? (String.ofList base)).map (⟨·, true⟩)
    | _ => (formerKind? name).map (⟨·, false⟩)

end FieldType

namespace CoarseType

def name : CoarseType → String
  | time => "time"
  | number => "number"
  | bool => "bool"
  | string => "string"
  | other => "other"

/-- The field type taken for a column of which only the coarse group is known. -/
def defaultFieldType : CoarseType → FieldType
  | time => ⟨.time, true⟩
  | number => ⟨.float64, true⟩
  | bool => ⟨.bool, true⟩
  | string | other => ⟨.string, true⟩

/-- Reading is exact: no blanks are taken off, and an absent name is the open group. -/
def ofName? : String → Option CoarseType
  | "time" => some time
  | "number" => some number
  | "bool" | "boolean" => some bool
  | "string" => some string
  | "other" | "" => some other
  | _ => none

end CoarseType

end Columnar
