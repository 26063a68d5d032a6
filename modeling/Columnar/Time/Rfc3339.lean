import Columnar.Decimal.Layout
import Columnar.Text.Octets
import Columnar.Time.Instant

/-! The text form of instants after RFC 3339. Written, it is in UTC with no fraction or one of 3, 6
or 9 digits, whichever is the shortest that is exact; a leap second is written as second 60.
Reading takes any offset from UTC and any number of fraction digits, of which nine count. -/
namespace Columnar

/-- Digits with leading zeros up to a width. -/
def paddedDigits (width n : Nat) : List Char :=
  let digits := Nat.toDigits 10 n
  List.replicate (width - digits.length) '0' ++ digits

namespace Instant

/-- Years 0 to 9999 have four digits; any other has a sign as well. -/
def yearChars (year : Int) : List Char :=
  if 0 ≤ year ∧ year ≤ 9999 then paddedDigits 4 year.toNat
  else (if year < 0 then '-' else '+') :: paddedDigits 4 year.natAbs

def dateChars (date : Date) : List Char :=
  yearChars date.year ++ '-' :: paddedDigits 2 date.month ++ '-' :: paddedDigits 2 date.day

/-- The fraction of a second, with its point. -/
def fractionChars (nano : Nat) : List Char :=
  if nano = 0 then []
  else if nano % 1000000 = 0 then '.' :: paddedDigits 3 (nano / 1000000)
  else if nano % 1000 = 0 then '.' :: paddedDigits 6 (nano / 1000)
  else '.' :: paddedDigits 9 nano

/-- Hours, minutes and seconds; the nanoseconds of a leap second make it second 60. -/
def clockChars (t : Instant) : List Char :=
  let leap := nanosPerSecond ≤ t.nano
  let second := t.secondOfDay % 60 + (if leap then 1 else 0)
  let nano := if leap then t.nano - nanosPerSecond else t.nano
  paddedDigits 2 (t.secondOfDay / 3600) ++ ':' :: paddedDigits 2 (t.secondOfDay / 60 % 60) ++
    ':' :: paddedDigits 2 second ++ fractionChars nano

def rfc3339 (t : Instant) : String :=
  String.ofList (dateChars t.date ++ 'T' :: t.clockChars ++ ['Z'])

/-- The form used in messages: a blank between date and clock, and the name of the zone. -/
def spacedText (t : Instant) : String :=
  String.ofList (dateChars t.date ++ ' ' :: t.clockChars ++ " UTC".toList)

end Instant

/-- Why a text is not a time. -/
inductive TimeFault where
  | tooShort
  | invalid
  | outOfRange
  | tooLong
deriving DecidableEq, Repr

def TimeFault.message : TimeFault → String
  | .tooShort => "premature end of input"
  | .invalid => "input contains invalid characters"
  | .outOfRange => "input is out of range"
  | .tooLong => "trailing input"

namespace Rfc3339

/-- A step of reading gives what it read and the octets that are left. -/
abbrev Read (α : Type) := Octets → Except TimeFault (α × Octets)

/-- A number of exactly so many digits. -/
def number (width : Nat) : Read Nat := fun octets =>
  if octets.length < width then .error .tooShort
  else
    let digits := octets.take width
    if digits.all Octets.isDigit then
      .ok (digits.foldl (fun n octet => n * 10 + Octets.digitValue octet) 0, octets.drop width)
    else .error .invalid

/-- A number of exactly so many digits that must lie within bounds. -/
def numberWithin (width low high : Nat) : Read Nat := fun octets => do
  let (n, rest) ← number width octets
  if low ≤ n ∧ n ≤ high then .ok (n, rest) else .error .outOfRange

/-- One of the given octets. -/
def oneOf (choices : List UInt8) : Read Unit
  | [] => .error .tooShort
  | octet :: rest => if choices.contains octet then .ok ((), rest) else .error .invalid

/-- Nanoseconds from the digits of a fraction: nine of them count. -/
def fraction : Read Nat := fun octets =>
  match octets with
  | [] => .error .tooShort
  | first :: _ =>
    if !Octets.isDigit first then .error .invalid
    else
      let digits := (octets.take 9).takeWhile Octets.isDigit
      let value := digits.foldl (fun n octet => n * 10 + Octets.digitValue octet) 0
      .ok (value * Nat.pow 10 (9 - digits.length), octets.dropWhile Octets.isDigit)

/-- A fraction, if there is a point. -/
def optionalFraction : Read Nat
  | 0x2E :: rest => fraction rest
  | octets => .ok (0, octets)

/-- The sign of an offset. The minus sign proper is accepted beside the hyphen. -/
def sign : Read Bool
  | [] => .error .tooShort
  | 0x2B :: rest => .ok (false, rest)
  | 0x2D :: rest => .ok (true, rest)
  | 0xE2 :: 0x88 :: 0x92 :: rest => .ok (true, rest)
  | _ => .error .invalid

/-- Two digits, any of them. -/
def twoDigits : Read Nat
  | a :: b :: rest =>
    if Octets.isDigit a && Octets.isDigit b then
      .ok (Octets.digitValue a * 10 + Octets.digitValue b, rest)
    else .error .invalid
  | _ => .error .tooShort

/-- The offset from UTC in seconds: the letter Z, or a sign with hours and minutes. -/
def offset : Read Int := fun octets =>
  match octets with
  | 0x5A :: rest | 0x7A :: rest => .ok (0, rest)
  | _ => do
    let (negative, octets) ← sign octets
    let (hours, octets) ← twoDigits octets
    let ((), octets) ← oneOf [0x3A] octets
    let (minutes, octets) ← twoDigits octets
    if 60 ≤ minutes then .error .outOfRange
    else if 24 ≤ hours then .error .outOfRange
    else
      let seconds : Int := (hours * 3600 + minutes * 60 : Nat)
      .ok (if negative then -seconds else seconds, octets)

/-- The instant written in a text, all of which must belong to it. Whether the calendar has the
date is asked last. -/
def read (octets : Octets) : Except TimeFault Instant := do
  let (year, octets) ← number 4 octets
  let ((), octets) ← oneOf [0x2D] octets
  let (month, octets) ← numberWithin 2 1 12 octets
  let ((), octets) ← oneOf [0x2D] octets
  let (day, octets) ← numberWithin 2 1 31 octets
  let ((), octets) ← oneOf [0x54, 0x74, 0x20] octets
  let (hour, octets) ← numberWithin 2 0 23 octets
  let ((), octets) ← oneOf [0x3A] octets
  let (minute, octets) ← numberWithin 2 0 59 octets
  let ((), octets) ← oneOf [0x3A] octets
  let (second, octets) ← numberWithin 2 0 60 octets
  let (nano, octets) ← optionalFraction octets
  let (offset, octets) ← offset octets
  if !octets.isEmpty then .error .tooLong
  else
    let date : Date := ⟨year, month, day⟩
    let leap := second = 60
    let clock : Int := (hour * 3600 + minute * 60 + (if leap then 59 else second) : Nat)
    let nano := if leap then nano + nanosPerSecond else nano
    if !date.isValid then .error .outOfRange
    else match Instant.ofParts? (date.toDay * 86400 + clock - offset) nano with
      | some t => .ok t
      | none => .error .outOfRange

end Rfc3339

end Columnar
