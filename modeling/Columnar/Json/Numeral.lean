import Columnar.Json.Fault
import Columnar.Json.Value

/-! Numbers as they stand in a JSON document. A numeral is read from its digits: they are taken
into one coefficient while that stays below 2^64, and a fraction or an exponent then scales the
coefficient by a power of ten in arithmetic of 64-bit floats, rounding at every step. -/
namespace Columnar

/-- The parts of a number as written. -/
structure Numeral where
  negative : Bool
  whole : List UInt8
  fraction : Option (List UInt8)
  exponent : Option (Bool × List UInt8)
deriving DecidableEq, Repr

/-- What a scan for a number finds: a numeral, or the faults of a text that breaks off. A reader
that wants the value and one that only passes over it may name different faults. -/
inductive NumberScan where
  | numeral (n : Numeral)
  | broken (reading skipping : SyntaxFault)
deriving DecidableEq, Repr

namespace Numeral

def isDigit := Octets.isDigit

/-- The exponent after its letter. -/
def scanExponent (negative : Bool) (whole : List UInt8) (fraction : Option (List UInt8))
    (octets : Octets) : NumberScan × Octets :=
  let (down, rest) := match octets with
    | 0x2B :: rest => (false, rest)
    | 0x2D :: rest => (true, rest)
    | rest => (false, rest)
  match rest with
  | [] => (.broken .endInValue .invalidNumber, [])
  | first :: _ =>
    if isDigit first then
      (.numeral ⟨negative, whole, fraction, some (down, rest.takeWhile isDigit)⟩,
        rest.dropWhile isDigit)
    else (.broken .invalidNumber .invalidNumber, [])

/-- What may follow the digits before an exponent. -/
def scanTail (negative : Bool) (whole : List UInt8) (fraction : Option (List UInt8)) :
    Octets → NumberScan × Octets
  | [] => (.numeral ⟨negative, whole, fraction, none⟩, [])
  | octet :: rest =>
    if octet = 0x65 ∨ octet = 0x45 then scanExponent negative whole fraction rest
    else (.numeral ⟨negative, whole, fraction, none⟩, octet :: rest)

/-- The fraction after its point. -/
def scanFraction (negative : Bool) (whole : List UInt8) (octets : Octets) : NumberScan × Octets :=
  match octets with
  | [] => (.broken .endInValue .invalidNumber, [])
  | first :: _ =>
    if isDigit first then
      scanTail negative whole (some (octets.takeWhile isDigit)) (octets.dropWhile isDigit)
    else (.broken .invalidNumber .invalidNumber, [])

/-- What may follow the whole digits. -/
def scanAfterWhole (negative : Bool) (whole : List UInt8) : Octets → NumberScan × Octets
  | 0x2E :: rest => scanFraction negative whole rest
  | octets => scanTail negative whole none octets

/-- The number at the head of the text, after its sign. A leading zero stands alone. -/
def scanSize (negative : Bool) : Octets → NumberScan × Octets
  | [] => (.broken .endInValue .invalidNumber, [])
  | first :: rest =>
    if first = 0x30 then
      match rest with
      | [] => scanAfterWhole negative [first] []
      | next :: _ =>
        if isDigit next then (.broken .invalidNumber .invalidNumber, [])
        else scanAfterWhole negative [first] rest
    else if isDigit first then
      scanAfterWhole negative (first :: rest.takeWhile isDigit) (rest.dropWhile isDigit)
    else (.broken .invalidNumber .invalidNumber, [])

/-- The number at the head of the text. -/
def scan : Octets → NumberScan × Octets
  | 0x2D :: rest => scanSize true rest
  | octets => scanSize false octets

/-- Coefficients stay below this. -/
def coefficientLimit : Nat := 0x10000000000000000

/-- The coefficient of the whole digits, and how many of the last ones did not go into it. -/
def takeWhole : Nat → List UInt8 → Nat × Nat
  | coefficient, [] => (coefficient, 0)
  | coefficient, digit :: rest =>
    let next := coefficient * 10 + Octets.digitValue digit
    if next < coefficientLimit then takeWhole next rest else (coefficient, rest.length + 1)

/-- The coefficient with the digits of a fraction, and how many of them went into it. -/
def takeFraction : Nat → List UInt8 → Nat × Nat
  | coefficient, [] => (coefficient, 0)
  | coefficient, digit :: rest =>
    let next := coefficient * 10 + Octets.digitValue digit
    if next < coefficientLimit then
      let (coefficient, taken) := takeFraction next rest
      (coefficient, taken + 1)
    else (coefficient, 0)

/-- The largest power of ten that a float of 64 bits can be scaled by at once. -/
def largestScale : Nat := 308

/-- Scaling down by a power of ten that may take several divisions. -/
def scaleDown (x : Binary64) (places : Nat) : Binary64 :=
  if places ≤ largestScale then x.div (Binary64.ofDecimal false 1 places)
  else if x.isZero then x
  else scaleDown (x.div (Binary64.ofDecimal false 1 largestScale)) (places - largestScale)
termination_by places
decreasing_by simp only [largestScale] at *; omega

/-- A coefficient scaled by a power of ten, if the result is in range. -/
def scale? (coefficient : Nat) (exponent : Int) : Option Binary64 :=
  let x := Binary64.ofInt coefficient
  if exponent < 0 then some (scaleDown x exponent.natAbs)
  else if exponent.toNat ≤ largestScale then
    let y := x.mul (Binary64.ofDecimal false 1 exponent)
    if y.isFinite then some y else none
  else if x.isZero then some x
  else none

/-- The float of a number, if it is in range. -/
def real? (negative : Bool) (size : Option Binary64) : Except SyntaxFault JsonNumber :=
  match size with
  | none => .error .numberOutOfRange
  | some size =>
    let x := if negative then size.negate else size
    if h : x.isFinite = true then .ok (.real x h) else .error .numberOutOfRange

/-- The greatest exponent that is looked at; a greater one leaves only zero in range. -/
def exponentLimit : Nat := 0x80000000

/-- The number a numeral stands for. Without fraction and exponent it is an integer if it fits 64
bits, but minus zero is a float. -/
def value (n : Numeral) : Except SyntaxFault JsonNumber :=
  let (coefficient, dropped) := takeWhole 0 n.whole
  let (coefficient, taken) := takeFraction coefficient (n.fraction.getD [])
  let places : Int := (dropped : Int) - taken
  match n.exponent with
  | some (down, digits) =>
    let size := digits.foldl (fun total digit => total * 10 + Octets.digitValue digit) 0
    if exponentLimit ≤ size then
      if coefficient ≠ 0 ∧ !down then .error .numberOutOfRange
      else real? n.negative (some Binary64.zero)
    else real? n.negative (scale? coefficient (if down then places - size else places + size))
  | none =>
    if n.fraction.isSome ∨ dropped ≠ 0 then real? n.negative (scale? coefficient places)
    else
      let size : Int := coefficient
      let float := real? n.negative (some (Binary64.ofInt size))
      if n.negative ∧ coefficient = 0 then float
      else
        match JsonNumber.ofInt? (if n.negative then -size else size) with
        | some number => .ok number
        | none => float

end Numeral

end Columnar
