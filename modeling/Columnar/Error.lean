import Columnar.Decimal.Reading
import Columnar.FieldType
import Columnar.Json.Raw
import Columnar.Labels
import Columnar.SeriesKind
import Columnar.Time.Rfc3339

/-! Everything that can go wrong, told by cause. Each error has one message, in which the values
that led to it are named. -/
namespace Columnar

/-- What is wrong with a JSON document of a frame. -/
inductive DocumentFault where
  | malformed (fault : RecordFault)
  | rawDocument (fault : SyntaxFault)
  | notObject (found : Json)
  | sectionNotObject (name : String) (found : Json)
  | fieldType (field : Nat) (name : String)
  | cell (field row : Nat) (type : FieldType) (found : Json)
  | entityCount (entries fields : Nat)
  | entitiesOnOther (field : Nat) (type : FieldType)
  | entityRow (field row rows : Nat)
  | noData
deriving Repr

/-- What is wrong with columns in Arrow form, or with text that should be UTF-8. -/
inductive StorageFault where
  | timeOutOfRange (field row : Nat) (time : Instant)
  | timestampOverflow (field row : Nat)
  | rawDocument (field row : Nat) (fault : SyntaxFault)
  | frameMeta (fault : RecordFault)
  | labels (field : Nat) (fault : RecordFault)
  | config (field : Nat) (fault : RecordFault)
  | invalidText (length index : Nat)
  | incompleteText (index : Nat)
  | unreadable
  | impossible
deriving Repr

/-- What is wrong with a setting. -/
inductive SettingFault where
  | arrowLayout (text : String)
  | frameParts (text : String)
  | logFormat (text : String)
  | notNatural (name text : String) (fault : IntegerFault)
  | blankServiceName
  | logLevel (text : String)
  | resourcePair (text : String)
  | fill (text : String)
  | unknownFormat (path : String)
  | outputOnly
  | oneFrameExpected (format : String) (count : Nat)
deriving DecidableEq, Repr

/-- Why a text could not be read as what it should be. -/
inductive TextFault where
  | label (fault : LabelFault)
  | cellFloat (field : String) (row : Nat) (text : String) (fault : FloatFault)
deriving DecidableEq, Repr

/-- Why a frame cannot be turned into the other layout of time series. -/
inductive PivotFault where
  | notLong (found : SeriesKind)
  | notWide (found : SeriesKind)
  | noTime
  | noRows (frame : String)
  | nullTime (field : String) (row : Nat)
  | noSlot (row : Nat)
  | duplicateRow (row : Nat) (time : Instant) (factors : List String)
  | notFillable (kind : Kind)
  | noSource (name : String)
  | differentTypes (name : String) (first second : FieldType)
deriving Repr

/-- Why a value could not be converted; whoever converts may have reasons of their own. -/
inductive ConversionFault where
  | notText (found : String) (target : Kind)
  | float (text : String) (fault : FloatFault)
  | integer (text : String) (fault : IntegerFault)
  | truth (text : String)
  | time (text : String) (fault : TimeFault)
  | notNumber (found : String)
  | other (words : String)
  | inCell (field row : Nat) (fault : ConversionFault)
deriving DecidableEq, Repr

/-- An error, by cause. -/
inductive Error where
  | noFields
  | fieldLengths (expected field actual : Nat)
  | fieldCount (expected actual : Nat)
  | indexOutOfRange (index length : Nat)
  | duplicateField (name : String)
  | typeMismatch (field : Option Nat) (expected : FieldType) (actual : String)
  | nullNotAllowed (field : Option Nat) (type : FieldType)
  | unknownFieldType (name : String)
  | unsupportedArrowType (name : String)
  | document (fault : DocumentFault)
  | storage (fault : StorageFault)
  | setting (fault : SettingFault)
  | text (fault : TextFault)
  | pivot (fault : PivotFault)
  | conversion (fault : ConversionFault)
  | arrow
  | system
deriving Repr

/-- The name of a JSON value's form, with its article. -/
def Json.formName : Json → String
  | .null => "null"
  | .bool _ => "a bool"
  | .number _ => "a number"
  | .string _ => "a string"
  | .list _ => "an array"
  | .object _ => "an object"

private def number (n : Nat) : String := integerText n

def DocumentFault.message : DocumentFault → String
  | malformed fault => fault.message
  | rawDocument fault => "invalid raw JSON value: " ++ fault.message
  | notObject found => "frame document must be a JSON object, got " ++ found.formName
  | sectionNotObject name found =>
    "'" ++ name ++ "' section must be a JSON object, got " ++ found.formName
  | fieldType field name => "field " ++ number field ++ ": unknown field type: " ++ name
  | cell field row type found =>
    "field " ++ number field ++ " row " ++ number row ++ ": expected " ++ type.name
      ++ " value, got " ++ found.text
  | entityCount entries fields =>
    number entries ++ " entity entries for " ++ number fields ++ " fields"
  | entitiesOnOther field type =>
    "field " ++ number field ++ ": entities on non-float field of type " ++ type.name
  | entityRow field row rows =>
    "field " ++ number field ++ ": entity row " ++ number row ++ " out of range for "
      ++ number rows ++ " rows"
  | noData => "payload has no data section"

def StorageFault.message : StorageFault → String
  | timeOutOfRange field row time =>
    "field " ++ number field ++ " row " ++ number row ++ ": time " ++ time.spacedText
      ++ " is outside the nanosecond timestamp range"
  | timestampOverflow field row =>
    "field " ++ number field ++ " row " ++ number row ++ ": timestamp overflows nanosecond range"
  | rawDocument field row fault =>
    "field " ++ number field ++ " row " ++ number row ++ ": JSON error: invalid raw JSON value: "
      ++ fault.message
  | frameMeta fault => "invalid frame meta: " ++ fault.message
  | labels field fault => "field " ++ number field ++ ": invalid labels: " ++ fault.message
  | config field fault => "field " ++ number field ++ ": invalid config: " ++ fault.message
  | invalidText length index =>
    "invalid utf-8 sequence of " ++ number length ++ " bytes from index " ++ number index
  | incompleteText index => "incomplete utf-8 byte sequence from index " ++ number index
  | unreadable => "the bytes are not Arrow data"
  | impossible => "the bytes promise what no Arrow data can hold"

def SettingFault.message : SettingFault → String
  | arrowLayout text => "unknown arrow format '" ++ text ++ "'. Use 'file' or 'stream'"
  | frameParts text => "unknown frame include '" ++ text ++ "'. Use 'all', 'schema' or 'data'"
  | logFormat text => "unknown log format '" ++ text ++ "'. Use 'json' or 'text'"
  | notNatural name text fault =>
    name ++ " must be a non-negative integer, got '" ++ text ++ "': " ++ fault.message
  | blankServiceName => "OTEL_SERVICE_NAME is set but empty"
  | logLevel text => "invalid log level '" ++ text ++ "'"
  | resourcePair text => "resource attribute '" ++ text ++ "' is not key=value"
  | fill text => "invalid fill '" ++ text ++ "'. Use null, previous or a number"
  | unknownFormat path => "cannot detect format of '" ++ path ++ "'; pass --from/--to"
  | outputOnly => "CSV is an output-only format"
  | oneFrameExpected format count =>
    format ++ " output holds exactly one frame, got " ++ number count

def TextFault.message : TextFault → String
  | label fault => fault.message
  | cellFloat field row text fault =>
    "field '" ++ field ++ "' row " ++ number row ++ ": cannot parse '" ++ text ++ "' as float: "
      ++ fault.message

def PivotFault.message : PivotFault → String
  | notLong found =>
    "long_to_wide needs a long time series frame (time, string factors, values), got "
      ++ found.name
  | notWide found =>
    "wide_to_long needs a wide time series frame (time and value fields only), got " ++ found.name
  | noTime => "frame has no time field"
  | noRows frame => "long frame '" ++ frame ++ "' has no rows to pivot"
  | nullTime field row => "null timestamp in field '" ++ field ++ "' at row " ++ number row
  | noSlot row => "row " ++ number row ++ ": timestamp missing from distinct set"
  | duplicateRow row time factors =>
    "duplicate row " ++ number row ++ " for time " ++ time.spacedText ++ " and factors "
      ++ Text.quotedList factors
  | notFillable kind => "cannot fill a " ++ kind.name ++ " field with a number"
  | noSource name => "no field for value '" ++ name ++ "'"
  | differentTypes name first second =>
    "value fields named '" ++ name ++ "' have different types: " ++ first.name ++ " and "
      ++ second.name

def ConversionFault.message : ConversionFault → String
  | notText found target =>
    "cannot convert " ++ found ++ " to " ++ target.name ++ ", expected a string"
  | float text fault => "'" ++ text ++ "' is not a float64: " ++ fault.message
  | integer text fault => "'" ++ text ++ "' is not an int64: " ++ fault.message
  | truth text => "'" ++ text ++ "' is not a bool"
  | time text fault => "'" ++ text ++ "' is not an RFC 3339 time: " ++ fault.message
  | notNumber found => "expected a number, got " ++ found
  | other words => words
  | inCell field row fault =>
    "field " ++ number field ++ " row " ++ number row ++ ": " ++ fault.message

namespace Error

/-- The error with its field named, where it speaks of one value. -/
def atField (field : Nat) : Error → Error
  | typeMismatch _ expected actual => typeMismatch (some field) expected actual
  | nullNotAllowed _ type => nullNotAllowed (some field) type
  | other => other

def message : Error → String
  | noFields => "frame has no fields"
  | fieldLengths expected field actual =>
    "frame has different field lengths: field 0 has length " ++ number expected ++ ", field "
      ++ number field ++ " has length " ++ number actual
  | fieldCount expected actual =>
    "frame has " ++ number expected ++ " fields but " ++ number actual ++ " values were given"
  | indexOutOfRange index length =>
    "index " ++ number index ++ " out of range for length " ++ number length
  | duplicateField name => "duplicate field: " ++ name
  | typeMismatch (some field) expected actual =>
    "type mismatch at field " ++ number field ++ ": expected " ++ expected.name ++ ", got "
      ++ actual
  | typeMismatch none expected actual =>
    "type mismatch: expected " ++ expected.name ++ ", got " ++ actual
  | nullNotAllowed (some field) type =>
    "null value at field " ++ number field ++ " of non-nullable type " ++ type.name
  | nullNotAllowed none type => "null value for non-nullable type " ++ type.name
  | unknownFieldType name => "unknown field type: " ++ name
  | unsupportedArrowType name => "unsupported arrow type: " ++ name
  | document fault => "JSON error: " ++ fault.message
  | storage fault => "Serialization error: " ++ fault.message
  | setting fault => "Configuration error: " ++ fault.message
  | text fault => "Parse error: " ++ fault.message
  | pivot fault => "Pivot error: " ++ fault.message
  | conversion fault => "Conversion error: " ++ fault.message
  | arrow => "Arrow error"
  | system => "IO error"

end Error

/-- A field type from its name, blanks around it apart. -/
def FieldType.parse (text : String) : Except Error FieldType :=
  let name := Text.trim text
  match ofName? name with
  | some type => .ok type
  | none => .error (.unknownFieldType name)

theorem FieldType.parse_name (type : FieldType) : FieldType.parse type.name = .ok type := by
  obtain ⟨kind, nullable⟩ := type
  cases kind <;> cases nullable <;> rfl

/-- A coarse type from its name as it stands. -/
def CoarseType.parse (name : String) : Except Error CoarseType :=
  match ofName? name with
  | some type => .ok type
  | none => .error (.unknownFieldType name)

/-- A document from octets whose syntax is sound. -/
def RawJson.ofOctets (octets : Octets) : Except Error RawJson :=
  match RawJson.parse octets with
  | .ok raw => .ok raw
  | .error fault => .error (.document (.rawDocument fault))

end Columnar
