import Columnar.Binary.Float
import Columnar.Text.Letters

/-! Reading numbers from text. An integer is read digit by digit and fails at the first character
that is no digit or at the first digit that takes it out of range, whichever comes first. A float
may have a fraction, an exponent and a sign, or be one of the words for infinity and for no
number; it is rounded once. -/
namespace Columnar

/-- Why a text is not an integer of the wanted range. -/
inductive IntegerFault where
  | empty
  | invalidDigit
  | tooLarge
  | tooSmall
deriving DecidableEq, Repr

def IntegerFault.message : IntegerFault → String
  | .empty => "cannot parse integer from empty string"
  | .invalidDigit => "invalid digit found in string"
  | .tooLarge => "number too large to fit in target type"
  | .tooSmall => "number too small to fit in target type"

/-- The number of a run of digits, none of which may take it beyond the limit. -/
def readDigits (limit : Nat) (beyond : IntegerFault) : Nat → List Char → Except IntegerFault Nat
  | total, [] => .ok total
  | total, c :: rest =>
    if !c.isDigit then .error .invalidDigit
    else
      let next := total * 10 + (c.toNat - '0'.toNat)
      if limit < next then .error beyond else readDigits limit beyond next rest

/-- A natural number up to a limit; a plus sign is allowed. -/
def readNatural (limit : Nat) (text : String) : Except IntegerFault Nat :=
  match text.toList with
  | [] => .error .empty
  | ['+'] => .error .invalidDigit
  | '+' :: digits => readDigits limit .tooLarge 0 digits
  | digits => readDigits limit .tooLarge 0 digits

/-- An integer of 64 bits; either sign is allowed. -/
def readInteger (text : String) : Except IntegerFault Int :=
  match text.toList with
  | [] => .error .empty
  | ['+'] | ['-'] => .error .invalidDigit
  | '+' :: digits => (readDigits 0x7FFFFFFFFFFFFFFF .tooLarge 0 digits).map Int.ofNat
  | '-' :: digits =>
    (readDigits 0x8000000000000000 .tooSmall 0 digits).map fun size => -(size : Int)
  | digits => (readDigits 0x7FFFFFFFFFFFFFFF .tooLarge 0 digits).map Int.ofNat

/-- Why a text is not a float. -/
inductive FloatFault where
  | empty
  | invalid
deriving DecidableEq, Repr

def FloatFault.message : FloatFault → String
  | .empty => "cannot parse float from empty string"
  | .invalid => "invalid float literal"

/-- An exponent: a sign if any, then digits only and at least one. -/
def readExponent? (text : List Char) : Option Int :=
  let (negative, digits) := match text with
    | '-' :: rest => (true, rest)
    | '+' :: rest => (false, rest)
    | rest => (false, rest)
  if digits.isEmpty || !digits.all Char.isDigit then none
  else
    let size : Int := Nat.ofDigitChars 10 digits 0
    some (if negative then -size else size)

/-- A number without sign: digits with at most one point among them, then an exponent if any. -/
def readDecimal? (text : List Char) : Option (Nat × Int) :=
  let whole := text.takeWhile Char.isDigit
  let rest := text.dropWhile Char.isDigit
  let (fraction, rest) := match rest with
    | '.' :: more => (more.takeWhile Char.isDigit, more.dropWhile Char.isDigit)
    | _ => ([], rest)
  if whole.isEmpty && fraction.isEmpty then none
  else
    let coefficient := Nat.ofDigitChars 10 (whole ++ fraction) 0
    let places : Int := fraction.length
    match rest with
    | [] => some (coefficient, -places)
    | c :: more =>
      if c = 'e' ∨ c = 'E' then
        (readExponent? more).map fun exponent => (coefficient, exponent - places)
      else none

/-- A float: a sign if any, then a number or one of the words, in either case of letters. -/
def readFloat (text : String) : Except FloatFault Binary64 :=
  if text.isEmpty then .error .empty
  else
    let (negative, size) := match text.toList with
      | '-' :: rest => (true, rest)
      | '+' :: rest => (false, rest)
      | rest => (false, rest)
    let word := String.ofList (size.map Char.toLower)
    if word = "inf" ∨ word = "infinity" then
      .ok (if negative then Binary64.negInfinity else Binary64.infinity)
    else if word = "nan" then .ok Binary64.nan
    else match readDecimal? size with
      | some (coefficient, exponent) => .ok (Binary64.ofDecimal negative coefficient exponent)
      | none => .error .invalid

end Columnar
