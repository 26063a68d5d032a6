import Columnar.Json.Record
import Columnar.Text.Blank
import Columnar.Text.Letters

/-! Labels name a series: a finite map from keys to values. The pairs are kept in the order of
their keys, so that two label sets with the same pairs are the same however they were built. -/
namespace Columnar

/-- A finite map of texts. -/
structure Labels where
  pairs : List (String × String)
  ascending : Keyed.Ascending pairs
deriving DecidableEq

/-- What is wrong with a piece of a label text. -/
inductive LabelFault where
  | noValue (pair : String)
  | emptyKey (pair : String)
deriving DecidableEq, Repr

def LabelFault.message : LabelFault → String
  | noValue pair => "label '" ++ pair ++ "' is invalid, expected key=value"
  | emptyKey pair => "label '" ++ pair ++ "' has an empty key"

namespace Labels

def empty : Labels := ⟨[], List.Pairwise.nil⟩

instance : Inhabited Labels := ⟨empty⟩

def insert (labels : Labels) (key value : String) : Labels :=
  ⟨Keyed.insert key value labels.pairs, Keyed.ascending_insert key value labels.ascending⟩

def get? (labels : Labels) (key : String) : Option String := labels.pairs.lookup key

def keys (labels : Labels) : List String := labels.pairs.map (·.1)

def size (labels : Labels) : Nat := labels.pairs.length

def isEmpty (labels : Labels) : Bool := labels.pairs.isEmpty

theorem eq_empty {labels : Labels} (none : labels.isEmpty = true) : labels = empty := by
  obtain ⟨pairs, ascending⟩ := labels
  cases pairs with
  | nil => rfl
  | cons pair rest => cases none

/-- The pairs set one after the other; of repeated keys the last one counts. -/
def ofPairs (pairs : List (String × String)) : Labels :=
  pairs.foldl (fun labels (key, value) => labels.insert key value) empty

/-- Every pair of the other label set is a pair of this one. -/
def contains (labels other : Labels) : Bool :=
  other.pairs.all fun (key, value) => labels.get? key == some value

/-- The pairs of both; where both have a key, the other one's value counts. -/
def extend (labels other : Labels) : Labels :=
  other.pairs.foldl (fun labels (key, value) => labels.insert key value) labels

/-- The order of label sets compares pair by pair; what ends first comes first. -/
def comparePairs : List (String × String) → List (String × String) → Ordering
  | [], [] => .eq
  | [], _ :: _ => .lt
  | _ :: _, [] => .gt
  | (k, v) :: rest, (l, w) :: others =>
    (compare k l).then ((compare v w).then (comparePairs rest others))

def order (a b : Labels) : Ordering := comparePairs a.pairs b.pairs

/-- Pairs in braces, in the order of their keys; no labels give no text. Nothing is escaped. -/
def text (labels : Labels) : String :=
  if labels.isEmpty then ""
  else
    "\x7b" ++ String.intercalate ", " (labels.pairs.map fun (key, value) => key ++ "=" ++ value)
      ++ "\x7d"

/-- The text inside one pair of braces, if it stands in one. -/
def withoutBraces (text : List Char) : List Char :=
  match text with
  | '\x7b' :: rest => (Text.beforeSuffix? ['\x7d'] rest).getD text
  | _ => text

/-- The text inside one pair of quotes, if it stands in one. -/
def withoutQuotes (text : List Char) : List Char :=
  match text with
  | '"' :: rest => (Text.beforeSuffix? ['"'] rest).getD text
  | _ => text

/-- The labels with the pair of one piece added; a blank piece adds nothing. The first equals sign
ends the key. -/
def addPiece (labels : Labels) (piece : List Char) : Except LabelFault Labels :=
  let pair := Text.trimChars piece
  if pair.isEmpty then .ok labels
  else match Text.cutAt '=' pair with
    | none => .error (.noValue (String.ofList pair))
    | some (key, value) =>
      let key := Text.trimChars key
      if key.isEmpty then .error (.emptyKey (String.ofList pair))
      else
        let value := withoutQuotes (Text.trimChars value)
        .ok (labels.insert (String.ofList key) (String.ofList value))

/-- The labels of a text: pieces between commas, in braces or not. A comma ends a piece wherever it
stands. -/
def parse (text : String) : Except LabelFault Labels :=
  let inner := withoutBraces (Text.trimChars text.toList)
  (Text.splitChars ',' inner).foldlM addPiece empty

/-- The labels as an object of strings. -/
def toJson (labels : Labels) : Json :=
  .object (labels.pairs.map fun (key, value) => (key, .string value))

/-- The labels of an object of strings. -/
def read : DraftReader Labels := fun draft =>
  (DraftReader.mapOf DraftReader.string draft).map ofPairs

end Labels

end Columnar
