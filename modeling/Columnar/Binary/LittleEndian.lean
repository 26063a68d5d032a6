import Columnar.Text.Octets

/-! Numbers as octets with the lowest one first, with a sign or without. -/
namespace Columnar

/-- The lowest octets of a number, so many of them. -/
def littleEndian : Nat → Nat → Octets
  | 0, _ => []
  | width + 1, n => n.toUInt8 :: littleEndian width (n / 256)

/-- The number that octets stand for. -/
def ofLittleEndian : Octets → Nat
  | [] => 0
  | octet :: rest => octet.toNat + 256 * ofLittleEndian rest

/-- A pattern of so many octets read as a number with sign. -/
def withSignBit (width pattern : Nat) : Int :=
  if 2 * pattern < Nat.pow 256 width then pattern else pattern - Nat.pow 256 width

/-- The pattern of so many octets that stands for a number with sign. -/
def signPattern (width : Nat) (n : Int) : Nat := (n % Nat.pow 256 width).toNat

/-- Octets with zeros added up to a multiple of eight. -/
def Octets.padded (octets : Octets) : Octets :=
  octets ++ List.replicate ((8 - octets.length % 8) % 8) 0

end Columnar
