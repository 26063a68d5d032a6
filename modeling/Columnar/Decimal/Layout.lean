import Columnar.Decimal.Shortest
import Columnar.Binary.Float

/-! Texts of numbers. A float is written with its shortest digits in one of two layouts: the plain
one for people and tables, always positional, and the one of JSON documents, which keeps a
fraction on whole numbers and turns to an exponent for very large and very small ones. -/
namespace Columnar

namespace Decimal

def digits (d : Decimal) : List Char := Nat.toDigits 10 d.coefficient

/-- The power of ten of the first digit. -/
def leadingPlace (d : Decimal) : Int := d.exponent + (d.digits.length : Int) - 1

/-- Whole part and fraction, without an exponent. The fraction is empty for whole numbers. -/
def positional (d : Decimal) : List Char × List Char :=
  let digits := d.digits
  if 0 ≤ d.exponent then (digits ++ List.replicate d.exponent.toNat '0', [])
  else
    let places := (-d.exponent).toNat
    if places < digits.length then
      (digits.take (digits.length - places), digits.drop (digits.length - places))
    else (['0'], List.replicate (places - digits.length) '0' ++ digits)

/-- The digits with a point after the first, and the exponent with its sign. -/
def scientific (d : Decimal) : List Char :=
  let place := d.leadingPlace
  let mantissa := match d.digits with
    | [] => []
    | [only] => [only]
    | first :: rest => first :: '.' :: rest
  mantissa ++ 'e' :: (if place < 0 then '-' else '+') :: Nat.toDigits 10 place.natAbs

end Decimal

/-- How a finite float is written. -/
structure NumberLayout where
  /-- The leading places written without an exponent; every place when absent. -/
  positionalPlaces : Option (Int × Int)
  /-- Whether a whole number keeps a fraction of one zero. -/
  marksWhole : Bool
  tie : TieRule

namespace NumberLayout

/-- Always positional, whole numbers without a point. -/
def plain : NumberLayout := ⟨none, false, .upward⟩

/-- Positional from 10^-5 to below 10^16. -/
def document : NumberLayout := ⟨some (-5, 15), true, .toEven⟩

/-- Positional from 10^-6 to below 10^13, for floats of 32 bits. -/
def documentSingle : NumberLayout := ⟨some (-6, 12), true, .toEven⟩

def isPositional (layout : NumberLayout) (place : Int) : Bool :=
  match layout.positionalPlaces with
  | none => true
  | some (first, last) => first ≤ place && place ≤ last

/-- The text of a number without its sign. Zero has no digits to search for. -/
def magnitude (layout : NumberLayout) (format : BinaryFormat) (significand : Nat) (exponent : Int) :
    List Char :=
  let decimal :=
    if significand = 0 then ⟨0, 0⟩ else Decimal.shortest format layout.tie significand exponent
  if significand = 0 ∨ layout.isPositional decimal.leadingPlace then
    match decimal.positional with
    | (whole, []) => if layout.marksWhole then whole ++ ['.', '0'] else whole
    | (whole, fraction) => whole ++ '.' :: fraction
  else decimal.scientific

/-- The text of what a bit pattern stands for; zero keeps its sign. -/
def write (layout : NumberLayout) (format : BinaryFormat) : FloatClass → List Char
  | .nan => "NaN".toList
  | .infinite negative => if negative then "-inf".toList else "inf".toList
  | .finite negative significand exponent =>
    let size := layout.magnitude format significand exponent
    if negative then '-' :: size else size

end NumberLayout

/-- The plain text of a float: shortest digits, never an exponent. -/
def Binary64.text (x : Binary64) : String :=
  String.ofList (NumberLayout.plain.write .double x.classify)

/-- The plain text of a float of 32 bits, with the digits that suffice for 32 bits. -/
def Binary32.text (x : Binary32) : String :=
  String.ofList (NumberLayout.plain.write .single x.classify)

/-- The decimal text of an integer. -/
def integerChars (n : Int) : List Char :=
  if n < 0 then '-' :: Nat.toDigits 10 n.natAbs else Nat.toDigits 10 n.natAbs

def integerText (n : Int) : String := String.ofList (integerChars n)

end Columnar
