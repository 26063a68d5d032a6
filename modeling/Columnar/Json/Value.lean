import Columnar.Decimal.Layout
import Columnar.Keyed
import Columnar.Text.Octets

/-! JSON values and their compact text. An integer that fits 64 bits stays an integer; any other
number is a finite float. An object is written in the order of its members; one that has been read
has them in the order of their keys, each key once. -/
namespace Columnar

/-- A number of a JSON document. -/
inductive JsonNumber where
  | whole (n : Int) (inRange : -0x8000000000000000 ≤ n ∧ n < 0x10000000000000000)
  | real (x : Binary64) (finite : x.isFinite = true)
deriving DecidableEq, Repr

/-- A JSON value. -/
inductive Json where
  | null
  | bool (b : Bool)
  | number (n : JsonNumber)
  | string (s : String)
  | list (items : List Json)
  | object (members : List (String × Json))
deriving Repr

instance : Inhabited Json := ⟨.null⟩

namespace JsonNumber

/-- An integer as a number, if it fits 64 bits with or without sign. -/
def ofInt? (n : Int) : Option JsonNumber :=
  if inRange : -0x8000000000000000 ≤ n ∧ n < 0x10000000000000000 then some (.whole n inRange)
  else none

/-- The integer, when the number is one of 64 bits with sign. -/
def signed? : JsonNumber → Option Int
  | whole n _ => if n < 0x8000000000000000 then some n else none
  | real .. => none

/-- The natural number, when the number is one. -/
def natural? : JsonNumber → Option Nat
  | whole n _ => if 0 ≤ n then some n.toNat else none
  | real .. => none

/-- The number as a float; integers are rounded. -/
def toBinary64 : JsonNumber → Binary64
  | whole n _ => Binary64.ofInt n
  | real x _ => x

def chars : JsonNumber → List Char
  | whole n _ => integerChars n
  | real x _ => NumberLayout.document.write .double x.classify

/-- Equality as numbers, integers and floats kept apart. -/
def same : JsonNumber → JsonNumber → Bool
  | whole n _, whole m _ => n == m
  | real x _, real y _ => x.sameNumber y
  | _, _ => false

end JsonNumber

namespace Json

def isNull : Json → Bool
  | null => true
  | _ => false

/-- Text that consists of ASCII characters only. -/
def ascii (text : List Char) : Octets := text.map fun c => c.toNat.toUInt8

/-- A character inside a string: quotes, backslashes and controls are escaped, and nothing else. -/
def escapeChar (c : Char) : Octets :=
  if c = '"' then ascii ['\\', '"']
  else if c = '\\' then ascii ['\\', '\\']
  else if c = '\x08' then ascii ['\\', 'b']
  else if c = '\x0c' then ascii ['\\', 'f']
  else if c = '\n' then ascii ['\\', 'n']
  else if c = '\r' then ascii ['\\', 'r']
  else if c = '\t' then ascii ['\\', 't']
  else if c.toNat < 0x20 then
    ascii ['\\', 'u', '0', '0', Nat.digitChar (c.toNat / 16), Nat.digitChar (c.toNat % 16)]
  else String.utf8EncodeChar c

def stringOctets (s : String) : Octets :=
  0x22 :: s.toList.flatMap escapeChar ++ [0x22]

/-- A float as a value. What is no number, or infinite, has no number to stand for it. -/
def ofReal (x : Binary64) : Json :=
  if h : x.isFinite = true then .number (.real x h) else .null

/-- A natural number as a value. -/
def ofNat (n : Nat) : Json := ((JsonNumber.ofInt? n).map Json.number).getD .null

/-- A member of an object that is written only when there is something to write. -/
def optionalMember (key : String) (value : Option Json) : List (String × Json) :=
  match value with
  | some value => [(key, value)]
  | none => []

/-- Texts one after the other with commas between them. -/
def commaSeparated : List Octets → Octets
  | [] => []
  | [only] => only
  | first :: rest => first ++ 0x2C :: commaSeparated rest

/-- Already written items as an array. -/
def listOctets (items : List Octets) : Octets := 0x5B :: commaSeparated items ++ [0x5D]

/-- Already written members as an object. -/
def objectOctets (members : List (String × Octets)) : Octets :=
  0x7B :: commaSeparated (members.map fun (key, value) => stringOctets key ++ 0x3A :: value)
    ++ [0x7D]

mutual

/-- The compact text of a value. -/
def octets : Json → Octets
  | null => ascii "null".toList
  | bool true => ascii "true".toList
  | bool false => ascii "false".toList
  | number n => ascii n.chars
  | string s => stringOctets s
  | list items => listOctets (itemOctets items)
  | object members => objectOctets (memberOctets members)

def itemOctets : List Json → List Octets
  | [] => []
  | item :: rest => item.octets :: itemOctets rest

def memberOctets : List (String × Json) → List (String × Octets)
  | [] => []
  | (key, value) :: rest => (key, value.octets) :: memberOctets rest

end

/-- The compact text as a string. -/
def text (value : Json) : String := value.octets.toText

mutual

/-- Equality of values: numbers as numbers, objects member by member. -/
def same : Json → Json → Bool
  | null, null => true
  | bool a, bool b => a == b
  | number a, number b => a.same b
  | string a, string b => a == b
  | list a, list b => sameItems a b
  | object a, object b => sameMembers a b
  | _, _ => false

def sameItems : List Json → List Json → Bool
  | [], [] => true
  | a :: as, b :: bs => a.same b && sameItems as bs
  | _, _ => false

def sameMembers : List (String × Json) → List (String × Json) → Bool
  | [], [] => true
  | (k, a) :: as, (l, b) :: bs => k == l && a.same b && sameMembers as bs
  | _, _ => false

end

end Json

end Columnar
