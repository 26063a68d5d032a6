import Columnar.Column

/-! Conversions of loosely typed values. Each one says which type its results have; null stays null
in all of them. -/
namespace Columnar

/-- A type and a function that is meant to give values of it. -/
structure Conversion where
  output : FieldType
  convert : Value → Except Error Value

namespace Conversion

/-- Values as they are. -/
def identity (output : FieldType) : Conversion := ⟨output, .ok⟩

/-- Values as they are, refused here when the type does not take them. -/
def checked (output : FieldType) : Conversion where
  output := output
  convert value := (Cell.ofValue output value).map fun _ => value

/-- A text without the blanks around it given to a reader; a blank text is null. -/
def ofText (target : Kind) (read : String → Except ConversionFault target.Element) :
    Value → Except Error Value
  | .null => .ok .null
  | .of .string text =>
    let text := Text.trim text
    if text.isEmpty then .ok .null
    else match read text with
      | .ok element => .ok (.of target element)
      | .error fault => .error (.conversion fault)
  | value => .error (.conversion (.notText value.kindName target))

def readFloat64 (text : String) : Except ConversionFault Binary64 :=
  (readFloat text).mapError (.float text)

def readInt64 (text : String) : Except ConversionFault Int64 :=
  ((readInteger text).map Int64.ofInt).mapError (.integer text)

/-- The words for truth values, in any case of their letters. -/
def readBool (text : String) : Except ConversionFault Bool :=
  match Text.lowerCase text with
  | "true" | "1" | "yes" => .ok true
  | "false" | "0" | "no" => .ok false
  | _ => .error (.truth text)

def readTime (text : String) : Except ConversionFault Instant :=
  (Rfc3339.read (Octets.ofString text)).mapError (.time text)

def stringToFloat64 : Conversion := ⟨⟨.float64, true⟩, ofText .float64 readFloat64⟩

def stringToInt64 : Conversion := ⟨⟨.int64, true⟩, ofText .int64 readInt64⟩

def stringToBool : Conversion := ⟨⟨.bool, true⟩, ofText .bool readBool⟩

def stringToTime : Conversion := ⟨⟨.time, true⟩, ofText .time readTime⟩

/-- Integers and floats of any width as floats of 64 bits. -/
def numericToFloat64 : Conversion where
  output := ⟨.float64, true⟩
  convert value :=
    match value, value.number? with
    | .null, _ => .ok .null
    | _, some x => .ok (.of .float64 x)
    | value, none => .error (.conversion (.notNumber value.kindName))

/-- Any value as its text. -/
def anyToString : Conversion where
  output := ⟨.string, true⟩
  convert
    | .null => .ok .null
    | value => .ok (.of .string value.text)

end Conversion

end Columnar
