import Columnar.Time.Calendar

/-! Instants of time in UTC, to the nanosecond, within the years -262143 to 262142. A leap second
has no second of its own in the count: it is the last second of a minute, with a billion
nanoseconds added. -/
namespace Columnar

/-- The first second of year -262143 and the last second of year 262142. -/
def earliestSecond : Int := -8334601228800
def latestSecond : Int := 8210266876799

/-- Nanoseconds in a second. -/
def nanosPerSecond : Nat := 1000000000

/-- An instant: whole seconds since 1970 began, and the nanoseconds within the second. -/
structure Instant where
  second : Int
  nano : Nat
  earliest_le : earliestSecond ≤ second := by decide
  le_latest : second ≤ latestSecond := by decide
  nano_lt : nano < 2 * nanosPerSecond := by decide
  leap_at_minute_end : nanosPerSecond ≤ nano → second % 60 = 59 := by decide
deriving DecidableEq, Repr

namespace Instant

def epoch : Instant := ⟨0, 0, by decide, by decide, by decide, by decide⟩

/-- The instant of a second and its nanoseconds, if both are in range. -/
def ofParts? (second : Int) (nano : Nat) : Option Instant :=
  if h : earliestSecond ≤ second ∧ second ≤ latestSecond ∧ nano < 2 * nanosPerSecond ∧
      (nanosPerSecond ≤ nano → second % 60 = 59) then
    some ⟨second, nano, h.1, h.2.1, h.2.2.1, h.2.2.2⟩
  else none

/-- The instant of a count of milliseconds, if it is in range. -/
def ofMillis? (millis : Int) : Option Instant :=
  ofParts? (millis / 1000) ((millis % 1000).toNat * 1000000)

/-- The instant of a count of nanoseconds, if it is in range. -/
def ofNanos? (nanos : Int) : Option Instant :=
  ofParts? (nanos / nanosPerSecond) (nanos % nanosPerSecond).toNat

/-- Milliseconds since 1970 began, rounded down. A leap second counts on into the next one. -/
def millis (t : Instant) : Int := t.second * 1000 + (t.nano / 1000000 : Nat)

/-- Nanoseconds since 1970 began. -/
def nanos (t : Instant) : Int := t.second * nanosPerSecond + t.nano

/-- The nanosecond count, if it fits 64 bits. -/
def nanos? (t : Instant) : Option Int :=
  if -0x8000000000000000 ≤ t.nanos ∧ t.nanos < 0x8000000000000000 then some t.nanos else none

/-- Earlier instants come first; a leap second comes after the second it extends. -/
def before (a b : Instant) : Bool :=
  a.second < b.second || (a.second == b.second && a.nano < b.nano)

def atMost (a b : Instant) : Bool := !b.before a

/-- The date, and the seconds passed of the day. -/
def date (t : Instant) : Date := Date.ofDay (t.second / 86400)

def secondOfDay (t : Instant) : Nat := (t.second % 86400).toNat

end Instant

end Columnar
