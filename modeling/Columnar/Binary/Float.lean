import Columnar.Binary.Format

/-! The two widths of floats that columns hold. A float is its bit pattern, so that a copy is exact
to the last bit; arithmetic and comparison follow the number it stands for. -/
namespace Columnar

/-- A float of 64 bits. -/
structure Binary64 where
  bits : UInt64
deriving DecidableEq, Repr

/-- A float of 32 bits. -/
structure Binary32 where
  bits : UInt32
deriving DecidableEq, Repr

/-- Equality of the numbers: zeros of either sign are equal, and what is no number equals nothing. -/
def FloatClass.sameNumber : FloatClass → FloatClass → Bool
  | .infinite s, .infinite t => s == t
  | .finite s m e, .finite t n f => (m == 0 && n == 0) || (s == t && m == n && e == f)
  | _, _ => false

/-- The sign of a number, as -1, 0 or 1 times its significand, over a common power of two. -/
private def signedOver (negative : Bool) (significand : Nat) (exponent least : Int) : Int :=
  let size : Int := (significand * Nat.pow 2 (exponent - least).toNat : Nat)
  if negative then -size else size

/-- Greater than, as numbers; false when either side is no number. -/
def FloatClass.greater : FloatClass → FloatClass → Bool
  | .nan, _ | _, .nan => false
  | .infinite s, .infinite t => !s && t
  | .infinite s, .finite .. => !s
  | .finite .., .infinite t => t
  | .finite s m e, .finite t n f =>
    signedOver t n f (min e f) < signedOver s m e (min e f)

namespace Binary64

def classify (x : Binary64) : FloatClass := BinaryFormat.double.classify x.bits.toNat

def ofPattern (pattern : Nat) : Binary64 := ⟨pattern.toUInt64⟩

def nan : Binary64 := ⟨0x7FF8000000000000⟩
def infinity : Binary64 := ⟨0x7FF0000000000000⟩
def negInfinity : Binary64 := ⟨0xFFF0000000000000⟩
def zero : Binary64 := ⟨0⟩

/-- The float nearest to a signed quotient. -/
def ofRatio (negative : Bool) (numerator denominator : Nat) : Binary64 :=
  ofPattern (BinaryFormat.double.withSign negative
    (BinaryFormat.double.roundRatio numerator denominator))

/-- The float nearest to an integer. -/
def ofInt (n : Int) : Binary64 := ofRatio (n < 0) n.natAbs 1

/-- A coefficient below this power of ten times its own size is out of reach on either side. -/
private def farExponent : Int := 400

/-- The float nearest to `coefficient · 10 ^ exponent`. Exponents so large or small that no digit
can bring the number back into range are settled without computing the power. -/
def ofDecimal (negative : Bool) (coefficient : Nat) (exponent : Int) : Binary64 :=
  let size : Int := Nat.log2 coefficient
  if coefficient = 0 then ofRatio negative 0 1
  else if farExponent < exponent then ofRatio negative (Nat.pow 10 farExponent.toNat) 1
  else if exponent < -(farExponent + size) then ofRatio negative 0 1
  else
    let (up, down) := tenPower exponent
    ofRatio negative (coefficient * up) down

def negate (x : Binary64) : Binary64 := ⟨x.bits ^^^ 0x8000000000000000⟩

def isNan (x : Binary64) : Bool := x.classify == .nan

def isFinite (x : Binary64) : Bool :=
  match x.classify with
  | .finite .. => true
  | _ => false

def isZero (x : Binary64) : Bool :=
  match x.classify with
  | .finite _ m _ => m == 0
  | _ => false

def sameNumber (x y : Binary64) : Bool := x.classify.sameNumber y.classify

def greater (x y : Binary64) : Bool := x.classify.greater y.classify

/-- The product, rounded once. -/
def mul (x y : Binary64) : Binary64 :=
  match x.classify, y.classify with
  | .finite s m e, .finite t n f =>
    let (up, down) := twoPower (e + f)
    ofRatio (s != t) (m * n * up) down
  | .infinite s, .infinite t => if s == t then infinity else negInfinity
  | .infinite s, .finite t n _ | .finite t n _, .infinite s =>
    if n = 0 then nan else if s == t then infinity else negInfinity
  | _, _ => nan

/-- The quotient, rounded once. -/
def div (x y : Binary64) : Binary64 :=
  match x.classify, y.classify with
  | .finite s m e, .finite t n f =>
    if n = 0 then (if m = 0 then nan else if s == t then infinity else negInfinity)
    else
      let (up, down) := twoPower (e - f)
      ofRatio (s != t) (m * up) (n * down)
  | .infinite s, .finite t _ _ => if s == t then infinity else negInfinity
  | .finite s _ _, .infinite t => ofRatio (s != t) 0 1
  | _, _ => nan

/-- The integer part, kept within bounds; zero when there is no number. -/
def truncateWithin (low high : Int) (x : Binary64) : Int :=
  match x.classify with
  | .nan => 0
  | .infinite negative => if negative then low else high
  | .finite negative m e =>
    let size : Int := (m * Nat.pow 2 e.toNat / Nat.pow 2 (-e).toNat : Nat)
    max low (min high (if negative then -size else size))

end Binary64

namespace Binary32

def classify (x : Binary32) : FloatClass := BinaryFormat.single.classify x.bits.toNat

def zero : Binary32 := ⟨0⟩

def nan : Binary32 := ⟨0x7FC00000⟩
def infinity : Binary32 := ⟨0x7F800000⟩
def negInfinity : Binary32 := ⟨0xFF800000⟩

def sameNumber (x y : Binary32) : Bool := x.classify.sameNumber y.classify

def isNan (x : Binary32) : Bool := x.classify == .nan

/-- The float of 32 bits nearest to a float of 64 bits. -/
def ofBinary64 (x : Binary64) : Binary32 :=
  match x.classify with
  | .nan => nan
  | .infinite negative => if negative then negInfinity else infinity
  | .finite negative m e =>
    let (up, down) := twoPower e
    ⟨(BinaryFormat.single.withSign negative
      (BinaryFormat.single.roundRatio (m * up) down)).toUInt32⟩

end Binary32

/-- The same number in 64 bits; nothing is lost. -/
def Binary64.ofBinary32 (x : Binary32) : Binary64 :=
  match x.classify with
  | .nan => nan
  | .infinite negative => if negative then negInfinity else infinity
  | .finite negative m e =>
    let (up, down) := twoPower e
    ofRatio negative (m * up) down

end Columnar
