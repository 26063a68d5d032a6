import Columnar.Binary.Format

/-! The shortest decimal that reads back as a given binary float. The reals that round to a float
form an interval around it, whose ends belong to it when the significand is even. Decimal grids are
tried from the coarsest down: the first grid with a point in the interval gives the fewest digits,
and of two such points the nearer one is taken. The float itself lies on the last grid tried, so
the search always ends with a point of the interval. -/
namespace Columnar

/-- A decimal number without sign: `coefficient · 10 ^ exponent`. -/
structure Decimal where
  coefficient : Nat
  exponent : Int
deriving DecidableEq, Repr

/-- Which of two equally near decimals is taken. -/
inductive TieRule where
  | toEven
  | upward
deriving DecidableEq, Repr

/-- The reals that round to a positive float, all measured in a quarter of its last place: the
float stands at `4 · significand`. -/
structure RoundingInterval where
  low : Nat
  value : Nat
  high : Nat
  closed : Bool
  unit : Int

namespace RoundingInterval

/-- Below a power of two the neighbours are twice as dense, except among the smallest numbers. -/
def around (format : BinaryFormat) (significand : Nat) (exponent : Int) : RoundingInterval where
  low :=
    if significand = Nat.pow 2 format.fractionBits ∧ format.leastExponent < exponent then
      4 * significand - 1
    else 4 * significand - 2
  value := 4 * significand
  high := 4 * significand + 2
  closed := significand % 2 == 0
  unit := exponent - 2

/-- How many units of the interval make one step of the decimal grid, as a fraction. -/
def gridStep (interval : RoundingInterval) (place : Int) : Nat × Nat :=
  let (tenUp, tenDown) := tenPower place
  let (twoUp, twoDown) := twoPower interval.unit
  (tenUp * twoDown, tenDown * twoUp)

/-- Whether the grid point `count · 10 ^ place` rounds to the float. -/
def holds (interval : RoundingInterval) (place : Int) (count : Nat) : Bool :=
  let (step, scale) := interval.gridStep place
  if interval.closed then
    interval.low * scale ≤ count * step && count * step ≤ interval.high * scale
  else
    interval.low * scale < count * step && count * step < interval.high * scale

/-- The number of whole grid steps below the float. -/
def stepsBelow (interval : RoundingInterval) (place : Int) : Nat :=
  let (step, scale) := interval.gridStep place
  interval.value * scale / step

/-- Of the two grid points next to the float, the one to take when both round to it. -/
def nearer (interval : RoundingInterval) (tie : TieRule) (place : Int) : Nat :=
  let (step, scale) := interval.gridStep place
  let below := interval.stepsBelow place
  let twice := 2 * interval.value * scale
  let middle := (2 * below + 1) * step
  if twice < middle then below
  else if middle < twice then below + 1
  else match tie with
    | .upward => below + 1
    | .toEven => below + below % 2

/-- A point of the grid that rounds to the float, the nearer one if there are two. -/
def onGrid? (interval : RoundingInterval) (tie : TieRule) (place : Int) : Option Nat :=
  let below := interval.stepsBelow place
  match interval.holds place below, interval.holds place (below + 1) with
  | true, true => some (interval.nearer tie place)
  | true, false => some below
  | false, true => some (below + 1)
  | false, false => none

/-- The coarsest grid with a hit, from `bottom + steps` down to `bottom`, where the float itself
is a grid point. -/
def search (interval : RoundingInterval) (tie : TieRule) (bottom : Int) : Nat → Decimal
  | 0 => ⟨interval.stepsBelow bottom, bottom⟩
  | steps + 1 =>
    match interval.onGrid? tie (bottom + (steps + 1 : Nat)) with
    | some count => ⟨count, bottom + (steps + 1 : Nat)⟩
    | none => interval.search tie bottom steps

/-- A place whose grid step is larger than every point of the interval. -/
def coarsest (interval : RoundingInterval) : Int :=
  let twos : Int := Nat.log2 interval.high + 1 + interval.unit
  if 0 ≤ twos then twos * 30103 / 100000 + 1 else twos * 30102 / 100000 + 1

end RoundingInterval

/-- The shortest decimal that rounds to the positive float `significand · 2 ^ exponent`. -/
def Decimal.shortest (format : BinaryFormat) (tie : TieRule) (significand : Nat) (exponent : Int) :
    Decimal :=
  let interval := RoundingInterval.around format significand exponent
  let bottom := min 0 exponent
  interval.search tie bottom (interval.coarsest - bottom).toNat

end Columnar
