/-! Binary floating point as exact arithmetic on natural numbers. A format gives the widths of the
fraction and the exponent; a bit pattern stands for a number `± significand · 2 ^ exponent`, an
infinity or no number; and a positive fraction is rounded to the nearest bit pattern, a tie going
to the even one. -/
namespace Columnar

/-- The widths of a binary interchange format. -/
structure BinaryFormat where
  fractionBits : Nat
  exponentBits : Nat

/-- What a bit pattern stands for. -/
inductive FloatClass where
  | nan
  | infinite (negative : Bool)
  | finite (negative : Bool) (significand : Nat) (exponent : Int)
deriving DecidableEq, Repr

namespace BinaryFormat

def single : BinaryFormat := ⟨23, 8⟩
def double : BinaryFormat := ⟨52, 11⟩

variable (format : BinaryFormat)

/-- The largest exponent field; it marks infinities and the absence of a number. -/
def specialField : Nat := Nat.pow 2 format.exponentBits - 1

/-- The exponent of the last place of the smallest numbers. -/
def leastExponent : Int := 2 - Nat.pow 2 (format.exponentBits - 1) - (format.fractionBits : Int)

/-- The bit pattern of positive infinity. -/
def infinityBits : Nat := format.specialField * Nat.pow 2 format.fractionBits

/-- The weight of the sign bit. -/
def signWeight : Nat := Nat.pow 2 (format.fractionBits + format.exponentBits)

/-- What a bit pattern stands for. An exponent field of zero has no hidden leading bit. -/
def classify (bits : Nat) : FloatClass :=
  let fraction := bits % Nat.pow 2 format.fractionBits
  let field := bits / Nat.pow 2 format.fractionBits % Nat.pow 2 format.exponentBits
  let negative := bits / format.signWeight % 2 == 1
  if field = format.specialField then
    if fraction = 0 then .infinite negative else .nan
  else if field = 0 then
    .finite negative fraction format.leastExponent
  else
    .finite negative (Nat.pow 2 format.fractionBits + fraction)
      (format.leastExponent + (field - 1 : Nat))

end BinaryFormat

/-- The quotient rounded to the nearest natural number, a tie to the even one. -/
def roundQuotient (numerator denominator : Nat) : Nat :=
  let quotient := numerator / denominator
  let twice := 2 * (numerator % denominator)
  if twice < denominator then quotient
  else if denominator < twice then quotient + 1
  else quotient + quotient % 2

/-- Two to an integer power, as a factor of the numerator and a factor of the denominator. -/
def twoPower (exponent : Int) : Nat × Nat :=
  (Nat.pow 2 exponent.toNat, Nat.pow 2 (-exponent).toNat)

/-- Ten to an integer power, as a factor of the numerator and a factor of the denominator. -/
def tenPower (exponent : Int) : Nat × Nat :=
  (Nat.pow 10 exponent.toNat, Nat.pow 10 (-exponent).toNat)

namespace BinaryFormat

variable (format : BinaryFormat)

/-- The exponent of the last place that a quotient of positive numbers is rounded to. -/
def lastPlace (numerator denominator : Nat) : Int :=
  let estimate : Int := (Nat.log2 numerator : Int) - (Nat.log2 denominator : Int)
  let (up, down) := twoPower estimate
  let leading := if denominator * up ≤ numerator * down then estimate else estimate - 1
  max (leading - format.fractionBits) format.leastExponent

/-- The bit pattern nearest to a quotient, without sign. A significand that rounds up to the next
power of two carries into the exponent field, and a quotient beyond the largest number becomes
infinity. -/
def roundRatio (numerator denominator : Nat) : Nat :=
  if numerator = 0 then 0
  else
    let place := format.lastPlace numerator denominator
    let (up, down) := twoPower place
    let significand := roundQuotient (numerator * down) (denominator * up)
    min ((place - format.leastExponent).toNat * Nat.pow 2 format.fractionBits + significand)
      format.infinityBits

/-- A bit pattern without sign, with the sign added. -/
def withSign (negative : Bool) (magnitude : Nat) : Nat :=
  if negative then format.signWeight + magnitude else magnitude

end BinaryFormat

end Columnar
