import Columnar.Json.Numeral

/-! The tokens of a JSON document. Every octet outside a token is a blank. A string is kept as the
pieces between its quotes, so that a reader can decode it and one that passes over it need not; the
first token that breaks off is the last one. -/
namespace Columnar

/-- A piece of a string: an octet that stands for itself, or an escaped code unit. -/
inductive StringPiece where
  | octet (o : UInt8)
  | unit (code : Nat)
deriving DecidableEq, Repr

/-- How a string ends. -/
inductive StringEnd where
  | closed
  | endOfText
  | control
  | badEscape
  | badHex
deriving DecidableEq, Repr

/-- A string as it stands between quotes. -/
structure QuotedString where
  pieces : List StringPiece
  ending : StringEnd
deriving DecidableEq, Repr

/-- The three words of JSON. -/
inductive JsonWord where
  | null
  | true
  | false
deriving DecidableEq, Repr

/-- A token. A word that breaks off carries its fault. -/
inductive JsonToken where
  | openList
  | closeList
  | openObject
  | closeObject
  | comma
  | colon
  | word (w : JsonWord)
  | brokenWord (fault : SyntaxFault)
  | number (n : Numeral)
  | brokenNumber (reading skipping : SyntaxFault)
  | string (s : QuotedString)
  | stray
deriving DecidableEq, Repr

namespace QuotedString

/-- The octet that a short escape stands for. -/
def shortEscape? (letter : UInt8) : Option UInt8 :=
  if letter = 0x22 ∨ letter = 0x5C ∨ letter = 0x2F then some letter
  else if letter = 0x62 then some 0x08
  else if letter = 0x66 then some 0x0C
  else if letter = 0x6E then some 0x0A
  else if letter = 0x72 then some 0x0D
  else if letter = 0x74 then some 0x09
  else none

/-- The scan with a piece in front. -/
def put (piece : StringPiece) (scan : QuotedString × Octets) : QuotedString × Octets :=
  (⟨piece :: scan.1.pieces, scan.1.ending⟩, scan.2)

/-- The string up to its closing quote, and what follows. -/
def scan : Octets → QuotedString × Octets
  | [] => (⟨[], .endOfText⟩, [])
  | 0x22 :: rest => (⟨[], .closed⟩, rest)
  | [0x5C] => (⟨[], .endOfText⟩, [])
  | 0x5C :: 0x75 :: a :: b :: c :: d :: rest =>
    if [a, b, c, d].all Octets.isHexDigit then
      put (.unit ([a, b, c, d].foldl (fun n digit => n * 16 + Octets.hexValue digit) 0)) (scan rest)
    else (⟨[], .badHex⟩, [])
  | 0x5C :: letter :: rest =>
    if letter = 0x75 then (⟨[], .endOfText⟩, [])
    else match shortEscape? letter with
      | some octet => put (.octet octet) (scan rest)
      | none => (⟨[], .badEscape⟩, [])
  | octet :: rest =>
    if octet < 0x20 then (⟨[], .control⟩, []) else put (.octet octet) (scan rest)

/-- The fault of passing over the string. -/
def skipFault (s : QuotedString) : Option SyntaxFault :=
  match s.ending with
  | .closed => none
  | .endOfText => some .endInString
  | .control => some .controlCharacter
  | .badEscape | .badHex => some .invalidEscape

/-- The octets of the pieces. A code unit of the first half of a pair must be followed at once by
one of the second half, and neither may stand alone. -/
def decode (ending : StringEnd) : List StringPiece → Except SyntaxFault Octets
  | [] => match ending with
    | .closed => .ok []
    | .endOfText => .error .endInString
    | .control => .error .controlCharacter
    | .badEscape | .badHex => .error .invalidEscape
  | .octet o :: rest => (decode ending rest).map (o :: ·)
  | .unit high :: rest =>
    if 0xDC00 ≤ high ∧ high ≤ 0xDFFF then .error .loneSurrogate
    else if high < 0xD800 ∨ 0xDBFF < high then
      (decode ending rest).map (String.utf8EncodeChar (Char.ofNat high) ++ ·)
    else match rest with
      | .unit low :: rest =>
        if 0xDC00 ≤ low ∧ low ≤ 0xDFFF then
          let code := (high - 0xD800) * 0x400 + (low - 0xDC00) + 0x10000
          (decode ending rest).map (String.utf8EncodeChar (Char.ofNat code) ++ ·)
        else .error .loneSurrogate
      | .octet _ :: _ => .error .brokenSurrogate
      | [] => match ending with
        | .endOfText => .error .endInString
        | .badHex => .error .invalidEscape
        | .closed | .control | .badEscape => .error .brokenSurrogate

/-- The string the pieces stand for. Whether they are text is asked last. -/
def read (s : QuotedString) : Except SyntaxFault String := do
  let octets ← decode s.ending s.pieces
  match Octets.toString? octets with
  | some text => .ok text
  | none => .error .invalidCodePoint

end QuotedString

namespace JsonToken

def isBlank (octet : UInt8) : Bool :=
  octet = 0x20 || octet = 0x0A || octet = 0x0D || octet = 0x09

/-- The rest of a word after its first letter. -/
def scanWord (w : JsonWord) : Octets → Octets → JsonToken × Octets
  | [], rest => (.word w, rest)
  | _ :: _, [] => (.brokenWord .endInValue, [])
  | letter :: letters, octet :: rest =>
    if octet = letter then scanWord w letters rest else (.brokenWord .expectedWord, [])

/-- The token that begins with an octet that is no blank, and what follows. -/
def scanOne (first : UInt8) (rest : Octets) : JsonToken × Octets :=
  if first = 0x5B then (.openList, rest)
  else if first = 0x5D then (.closeList, rest)
  else if first = 0x7B then (.openObject, rest)
  else if first = 0x7D then (.closeObject, rest)
  else if first = 0x2C then (.comma, rest)
  else if first = 0x3A then (.colon, rest)
  else if first = 0x22 then
    let (s, rest) := QuotedString.scan rest
    (.string s, rest)
  else if first = 0x6E then scanWord .null (Json.ascii "ull".toList) rest
  else if first = 0x74 then scanWord .true (Json.ascii "rue".toList) rest
  else if first = 0x66 then scanWord .false (Json.ascii "alse".toList) rest
  else if first = 0x2D ∨ Octets.isDigit first then
    match Numeral.scan (first :: rest) with
    | (.numeral n, rest) => (.number n, rest)
    | (.broken reading skipping, _) => (.brokenNumber reading skipping, [])
  else (.stray, [])

/-- Whether scanning goes on after a token. -/
def isWhole : JsonToken → Bool
  | brokenWord _ | brokenNumber .. | stray => false
  | string s => s.ending == .closed
  | _ => true

/-- The tokens of a text. The first argument bounds their number; a text has at most as many as it
has octets. -/
def scanUpTo : Nat → Octets → List JsonToken
  | 0, _ => []
  | _ + 1, [] => []
  | bound + 1, first :: rest =>
    if isBlank first then scanUpTo bound rest
    else
      let (token, rest) := scanOne first rest
      if token.isWhole then token :: scanUpTo bound rest else [token]

def scan (octets : Octets) : List JsonToken := scanUpTo octets.length octets

end JsonToken

end Columnar
