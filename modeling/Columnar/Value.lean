import Columnar.Element

/-! Values: an element together with its kind, or null. Rows are made of values, so that a row can
speak of columns of different types. -/
namespace Columnar

/-- An element of some kind, or null. -/
inductive Value where
  | null
  | of (kind : Kind) (element : kind.Element)

namespace Value

instance : Inhabited Value := ⟨null⟩

def isNull : Value → Bool
  | null => true
  | of .. => false

def kind? : Value → Option Kind
  | null => none
  | of kind _ => some kind

/-- The type without nulls that a value has; null has none. -/
def fieldType? (value : Value) : Option FieldType :=
  value.kind?.map (⟨·, false⟩)

/-- The name of the value's kind in messages. -/
def kindName : Value → String
  | null => "null"
  | of kind _ => kind.name

def string? : Value → Option String
  | of .string s => some s
  | _ => none

def time? : Value → Option Instant
  | of .time t => some t
  | _ => none

def number? : Value → Option Binary64
  | null => none
  | of kind element => kind.number? element

/-- The text of a value; null has an empty one. -/
def text : Value → String
  | null => ""
  | of kind element => kind.text element

/-- The element of a value of the given kind. -/
def element? (kind : Kind) : Value → Option kind.Element
  | null => none
  | of actual element => if h : actual = kind then some (h ▸ element) else none

/-- Equality of values: of one kind, and equal as elements of it. -/
def same : Value → Value → Bool
  | null, null => true
  | of kind x, value =>
    match value.element? kind with
    | some y => kind.same x y
    | none => false
  | _, _ => false

end Value

end Columnar
