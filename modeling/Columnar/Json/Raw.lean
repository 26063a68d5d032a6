import Columnar.Json.Reading
import Columnar.Proofs.Json.Values

/-! JSON documents kept as their octets. Such a document is checked for its syntax only: numbers
may be out of range, strings may not be text, and nesting has no limit, so that its value may still
be unreadable. -/
namespace Columnar

/-- A document kept as its octets; made from octets whose syntax is sound, or from a value. -/
structure RawJson where
  octets : Octets
  sound : Json.syntaxFault? octets = none
deriving DecidableEq, Repr

namespace RawJson

/-- A document from its octets, kept as they are. -/
def parse (octets : Octets) : Except SyntaxFault RawJson :=
  match checked : Json.syntaxFault? octets with
  | none => .ok ⟨octets, checked⟩
  | some fault => .error fault

/-- The document with the compact text of a value. -/
def ofValue (value : Json) : RawJson := ⟨value.octets, value.syntaxFault?_octets⟩

/-- The document of nothing. -/
def null : RawJson := ofValue .null

/-- The value of the document, if it can be read. -/
def value (raw : RawJson) : Except SyntaxFault Json := Json.read raw.octets

def text (raw : RawJson) : String := raw.octets.toText

/-- A document is found again in its octets. -/
theorem parse_octets (raw : RawJson) : parse raw.octets = .ok raw := by
  obtain ⟨octets, sound⟩ := raw
  unfold parse
  split
  next => rfl
  next fault faulty =>
    rw [sound] at faulty
    cases faulty

end RawJson

end Columnar
