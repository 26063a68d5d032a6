/-! Text as octets. A string is written as its UTF-8 octets; octets are read back as a string, or,
where a reader must not fail, with one replacement character for every longest beginning of a
character that breaks off. -/
namespace Columnar

/-- A run of octets, such as the contents of a file. -/
abbrev Octets := List UInt8

namespace Octets

def ofString (text : String) : Octets := text.toUTF8.toList

/-- The string these octets are the UTF-8 form of, if they are one. -/
def toString? (octets : Octets) : Option String :=
  String.fromUTF8? ⟨octets.toArray⟩

def isDigit (octet : UInt8) : Bool := 0x30 ≤ octet && octet ≤ 0x39

def digitValue (octet : UInt8) : Nat := octet.toNat - 0x30

def isHexDigit (octet : UInt8) : Bool :=
  isDigit octet || (0x41 ≤ octet && octet ≤ 0x46) || (0x61 ≤ octet && octet ≤ 0x66)

def hexValue (octet : UInt8) : Nat :=
  if isDigit octet then octet.toNat - 0x30
  else if octet ≤ 0x46 then octet.toNat - 0x41 + 10
  else octet.toNat - 0x61 + 10

/-- The octets that may follow a leading octet: how many, the least and greatest value of the first
of them, and the bits that the leading octet contributes. -/
def leading (octet : UInt8) : Option (Nat × UInt8 × UInt8 × Nat) :=
  if octet < 0x80 then some (0, 0x80, 0xBF, octet.toNat)
  else if octet < 0xC2 then none
  else if octet < 0xE0 then some (1, 0x80, 0xBF, octet.toNat - 0xC0)
  else if octet < 0xF0 then
    some (2, if octet = 0xE0 then 0xA0 else 0x80, if octet = 0xED then 0x9F else 0xBF,
      octet.toNat - 0xE0)
  else if octet < 0xF5 then
    some (3, if octet = 0xF0 then 0x90 else 0x80, if octet = 0xF4 then 0x8F else 0xBF,
      octet.toNat - 0xF0)
  else none

/-- Reading as text without failing. The state is the number of octets still missing from the
character in hand, the bounds for the next one, and the bits collected so far. -/
private def readLossy : Nat → UInt8 → UInt8 → Nat → Octets → List Char
  | 0, _, _, _, [] => []
  | _ + 1, _, _, _, [] => ['\uFFFD']
  | missing, low, high, bits, octet :: rest =>
    if missing ≠ 0 ∧ low ≤ octet ∧ octet ≤ high then
      let bits := bits * 64 + (octet.toNat - 0x80)
      if missing = 1 then Char.ofNat bits :: readLossy 0 0x80 0xBF 0 rest
      else readLossy (missing - 1) 0x80 0xBF bits rest
    else
      let broken := if missing = 0 then [] else ['\uFFFD']
      broken ++ match leading octet with
        | none => '\uFFFD' :: readLossy 0 0x80 0xBF 0 rest
        | some (0, _, _, bits) => Char.ofNat bits :: readLossy 0 0x80 0xBF 0 rest
        | some (more, low, high, bits) => readLossy more low high bits rest

/-- Where octets stop being text. -/
inductive TextBreak where
  | invalid (length index : Nat)
  | incomplete (index : Nat)
deriving DecidableEq, Repr

/-- The first place where octets stop being text. The state is that of a character in hand, its
octets so far and where it begins. -/
def breakFrom (begin length missing : Nat) (low high : UInt8) : Octets → Option TextBreak
  | [] => if missing = 0 then none else some (.incomplete begin)
  | octet :: rest =>
    if missing = 0 then
      match leading octet with
      | none => some (.invalid 1 begin)
      | some (0, _, _, _) => breakFrom (begin + 1) 0 0 low high rest
      | some (more, low, high, _) => breakFrom begin 1 more low high rest
    else if low ≤ octet ∧ octet ≤ high then
      if missing = 1 then breakFrom (begin + length + 1) 0 0 0x80 0xBF rest
      else breakFrom begin (length + 1) (missing - 1) 0x80 0xBF rest
    else some (.invalid length begin)

/-- The first place where octets stop being text: a character that is broken, with the number of its
octets, or one that the end cuts off. -/
def textBreak? (octets : Octets) : Option TextBreak := breakFrom 0 0 0 0x80 0xBF octets

/-- The octets as text, whatever they are. -/
def toText (octets : Octets) : String :=
  match octets.toString? with
  | some text => text
  | none => String.ofList (readLossy 0 0x80 0xBF 0 octets)

/-- Two hexadecimal digits for every octet. -/
def hexChars (octets : Octets) : List Char :=
  octets.flatMap fun octet => [Nat.digitChar (octet.toNat / 16), Nat.digitChar (octet.toNat % 16)]

end Octets

end Columnar
