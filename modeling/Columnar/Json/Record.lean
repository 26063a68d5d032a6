import Columnar.Json.Reading
import Columnar.Text.Quoted

/-! Reading typed parts of JSON documents. A reader takes a draft and answers with a value of its
type or with the first fault. Records are objects with known members: unknown members are passed
over, a known one may stand there once, and a record may also be written as the list of its values
in order. -/
namespace Columnar

/-- What a reader finds in the place of what it expects. -/
inductive Unexpected where
  | null
  | bool (b : Bool)
  | number (n : JsonNumber)
  | string (s : String)
  | list
  | object
deriving DecidableEq, Repr

def Unexpected.text : Unexpected → String
  | null => "null"
  | bool b => "boolean `" ++ toString b ++ "`"
  | number (.whole n _) => "integer `" ++ integerText n ++ "`"
  | number (.real x h) =>
    "floating point `" ++ String.ofList (JsonNumber.real x h).chars ++ "`"
  | string s => "string " ++ Text.quoted s
  | list => "sequence"
  | object => "map"

/-- Why a draft is not of the wanted form. -/
inductive RecordFault where
  | malformed (fault : SyntaxFault)
  | invalidType (found : Unexpected) (expected : String)
  | invalidValue (found : Unexpected) (expected : String)
  | invalidLength (length : Nat) (expected : String)
  | missingField (name : String)
  | duplicateField (name : String)
  | unknownVariant (name : String) (expected : List String)
  | unknownFieldType (name : String)
deriving DecidableEq, Repr

namespace RecordFault

/-- The choices among which a name was expected. -/
def choices : List String → String
  | [] => "there are no variants"
  | [only] => "expected `" ++ only ++ "`"
  | [first, second] => "expected `" ++ first ++ "` or `" ++ second ++ "`"
  | names => "expected one of " ++ String.intercalate ", " (names.map fun n => "`" ++ n ++ "`")

def message : RecordFault → String
  | malformed fault => fault.message
  | invalidType found expected => "invalid type: " ++ found.text ++ ", expected " ++ expected
  | invalidValue found expected => "invalid value: " ++ found.text ++ ", expected " ++ expected
  | invalidLength length expected =>
    "invalid length " ++ toString length ++ ", expected " ++ expected
  | missingField name => "missing field `" ++ name ++ "`"
  | duplicateField name => "duplicate field `" ++ name ++ "`"
  | unknownVariant name expected => "unknown variant `" ++ name ++ "`, " ++ choices expected
  | unknownFieldType name => "unknown field type: " ++ name

end RecordFault

/-- Where a draft comes from: from a text that is read on the way, or from a value that has been
read before. It shows only in a few messages. -/
inductive DraftOrigin where
  | text
  | value
deriving DecidableEq, Repr

/-- Reading a draft as something of a type. -/
abbrev DraftReader (α : Type) := Draft → Except RecordFault α

namespace DraftReader

/-- The fault of finding a draft where something else is expected. -/
def mismatch (expected : String) : Draft → RecordFault
  | .null => .invalidType .null expected
  | .bool b => .invalidType (.bool b) expected
  | .number (.ok n) => .invalidType (.number n) expected
  | .number (.error fault) => .malformed fault
  | .string text =>
    match text.reading with
    | .ok s => .invalidType (.string s) expected
    | .error fault => .malformed fault
  | .list .. => .invalidType .list expected
  | .object .. => .invalidType .object expected
  | .broken reading _ => .malformed reading
  | .deep _ => .malformed .tooDeep

def lift {α : Type} : Except SyntaxFault α → Except RecordFault α
  | .ok value => .ok value
  | .error fault => .error (.malformed fault)

/-- The end of a list or an object. -/
def atEnd {α : Type} (value : α) : DraftEnd → Except RecordFault α
  | .closed => .ok value
  | .cut reading _ => .error (.malformed reading)

/-- Any value. -/
def json : DraftReader Json := fun draft => lift draft.toJson

def string : DraftReader String
  | .string text => lift text.reading
  | draft => .error (mismatch "a string" draft)

def flag : DraftReader Bool
  | .bool b => .ok b
  | draft => .error (mismatch "a boolean" draft)

/-- A float; integers are rounded. -/
def real : DraftReader Binary64
  | .number (.ok n) => .ok n.toBinary64
  | draft => .error (mismatch "f64" draft)

/-- A natural number of a width in bits; the width has a name in messages. -/
def natural (bits : Nat) (name : String) : DraftReader Nat
  | .number (.ok (.whole n h)) =>
    if 0 ≤ n ∧ n < Nat.pow 2 bits then .ok n.toNat
    else .error (.invalidValue (.number (.whole n h)) name)
  | draft => .error (mismatch name draft)

/-- Nothing for null, else what the reader reads. -/
def nullable {α : Type} (read : DraftReader α) : DraftReader (Option α)
  | .null => .ok none
  | draft => (read draft).map some

/-- The items of a list in order. -/
def items {α : Type} (read : DraftReader α) (ending : DraftEnd) :
    List Draft → Except RecordFault (List α)
  | [] => atEnd [] ending
  | draft :: rest =>
    match read draft with
    | .error fault => .error fault
    | .ok value => (items read ending rest).map (value :: ·)

def listOf {α : Type} (read : DraftReader α) : DraftReader (List α)
  | .list drafts ending => items read ending drafts
  | draft => .error (mismatch "a sequence" draft)

/-- The members of an object, ordered by their keys; of repeated keys the last one counts. -/
def members {α : Type} (read : DraftReader α) (ending : DraftEnd) (done : List (String × α)) :
    List (DraftText × Draft) → Except RecordFault (List (String × α))
  | [] => atEnd done ending
  | (key, draft) :: rest =>
    match key.reading, read draft with
    | .error fault, _ => .error (.malformed fault)
    | .ok _, .error fault => .error fault
    | .ok key, .ok value => members read ending (Keyed.insert key value done) rest

def mapOf {α : Type} (read : DraftReader α) : DraftReader (List (String × α))
  | .object drafts ending => members read ending [] drafts
  | draft => .error (mismatch "a map" draft)

/-- What may follow the last expected item of a list: only its end. -/
def noMoreItems {α : Type} (origin : DraftOrigin) (total : Nat) (value : α) :
    List Draft → DraftEnd → Except RecordFault α
  | [], .closed => .ok value
  | [], .cut reading _ =>
    if reading = .endInList ∨ reading = .trailingComma then .error (.malformed reading)
    else .error (.malformed .trailingCharacters)
  | _ :: _, _ =>
    match origin with
    | .text => .error (.malformed .trailingCharacters)
    | .value => .error (.invalidLength total "fewer elements in array")

/-- A list of two items. -/
def pairOf {α : Type} (origin : DraftOrigin) (read : DraftReader α) : DraftReader (α × α)
  | .list (first :: second :: rest) ending => do
    let a ← read first
    let b ← read second
    noMoreItems origin (rest.length + 2) (a, b) rest ending
  | .list [only] ending => do
    let _ ← read only
    atEnd () ending
    .error (.invalidLength 1 "an array of length 2")
  | .list [] ending => do
    atEnd () ending
    .error (.invalidLength 0 "an array of length 2")
  | draft => .error (mismatch "an array of length 2" draft)

/-- The choice that a name stands for. -/
def choose {α : Type} (variants : List (String × α)) (name : String) : Except RecordFault α :=
  match variants.lookup name with
  | some choice => .ok choice
  | none => .error (.unknownVariant name (variants.map (·.1)))

/-- A choice without contents, when it is written as the key of an object. -/
def emptyContents : Draft → Except RecordFault Unit
  | .null => .ok ()
  | draft => .error (mismatch "unit" draft)

/-- One of several names, or an object whose only key is one of them and holds nothing. -/
def oneOf {α : Type} (origin : DraftOrigin) (variants : List (String × α)) : DraftReader α
  | .string text => do
    let name ← lift text.reading
    choose variants name
  | .object drafts ending =>
    match origin, drafts, ending with
    | .value, [(key, contents)], _ => do
      let name ← lift key.reading
      let choice ← choose variants name
      emptyContents contents
      .ok choice
    | .value, _, _ => .error (.invalidValue .object "map with a single key")
    | .text, [], .cut .endInObject _ => .error (.malformed .endInValue)
    | .text, [], _ => .error (.malformed .expectedValue)
    | .text, (key, contents) :: rest, ending => do
      let name ← lift key.reading
      let choice ← choose variants name
      emptyContents contents
      match rest, ending with
      | [], .closed => .ok choice
      | [], .cut .endInObject _ => .error (.malformed .endInObject)
      | _, _ => .error (.malformed .expectedValue)
  | draft =>
    match origin, draft with
    | .value, draft => .error (mismatch "string or map" draft)
    | .text, .broken .invalidNumber _ | .text, .broken .expectedWord _ =>
      .error (.malformed .expectedValue)
    | .text, .broken reading _ => .error (.malformed reading)
    | .text, _ => .error (.malformed .expectedValue)

/-- A member of a record: its names, the first of which is used in messages, what it sets in the
record, and whether a record may do without it, as an object and as a list. -/
structure Member (α : Type) where
  names : List String
  set : Draft → α → Except RecordFault α
  optionalInObject : Bool
  optionalInList : Bool

namespace Member

/-- The name used in messages. -/
def name {α : Type} (member : Member α) : String := member.names.headD ""

end Member

/-- The members of a record from an object. A member that has been set before is refused before its
value is looked at. -/
def setMembers {α : Type} (fields : List (Member α)) (ending : DraftEnd) (seen : List String)
    (record : α) : List (DraftText × Draft) → Except RecordFault (α × List String)
  | [] => atEnd (record, seen) ending
  | (key, draft) :: rest =>
    match key.reading with
    | .error fault => .error (.malformed fault)
    | .ok key =>
      match fields.find? (·.names.contains key) with
      | none =>
        match draft.skipFault with
        | some fault => .error (.malformed fault)
        | none => setMembers fields ending seen record rest
      | some field =>
        if seen.contains field.name then .error (.duplicateField field.name)
        else match field.set draft record with
          | .error fault => .error fault
          | .ok record => setMembers fields ending (field.name :: seen) record rest

/-- The members of a record from a list. -/
def setItems {α : Type} (origin : DraftOrigin) (expected : String) (total position : Nat)
    (ending : DraftEnd) : List (Member α) → List Draft → α → Except RecordFault α
  | [], drafts, record => noMoreItems origin total record drafts ending
  | field :: fields, [], record =>
    match ending with
    | .cut reading _ => .error (.malformed reading)
    | .closed =>
      if field.optionalInList then
        setItems origin expected total (position + 1) ending fields [] record
      else .error (.invalidLength position expected)
  | field :: fields, draft :: drafts, record =>
    match field.set draft record with
    | .error fault => .error fault
    | .ok record => setItems origin expected total (position + 1) ending fields drafts record

/-- A record with known members, starting from a record with none of them set. -/
def record {α : Type} (origin : DraftOrigin) (name : String) (fields : List (Member α))
    (empty : α) : DraftReader α
  | .object drafts ending => do
    let (record, seen) ← setMembers fields ending [] empty drafts
    match fields.find? fun field => !field.optionalInObject && !seen.contains field.name with
    | some field => .error (.missingField field.name)
    | none => .ok record
  | .list drafts ending =>
    let expected := "struct " ++ name ++ " with " ++ toString fields.length ++
      (if fields.length = 1 then " element" else " elements")
    setItems origin expected drafts.length 0 ending fields drafts empty
  | draft => .error (mismatch ("struct " ++ name) draft)

/-- A member that may be absent or null; a list may leave it out if told so. -/
def optional {α β : Type} (name : String) (inList : Bool) (read : DraftReader β)
    (set : Option β → α → α) : Member α where
  names := [name]
  set := fun draft record => (nullable read draft).map fun value => set value record
  optionalInObject := true
  optionalInList := inList

/-- A member that may be absent but not null. -/
def defaulted {α β : Type} (names : List String) (read : DraftReader β) (set : β → α → α) :
    Member α where
  names := names
  set := fun draft record => (read draft).map fun value => set value record
  optionalInObject := true
  optionalInList := true

/-- A member that must be there. -/
def required {α β : Type} (name : String) (read : DraftReader β) (set : β → α → α) :
    Member α where
  names := [name]
  set := fun draft record => (read draft).map fun value => set value record
  optionalInObject := false
  optionalInList := false

/-- A whole text read with one reader. What stands after the document is looked at last. -/
def ofText {α : Type} (read : DraftOrigin → DraftReader α) (octets : Octets) :
    Except RecordFault α := do
  let scan := Draft.scan octets
  let value ← read .text scan.draft
  if scan.trailing then .error (.malformed .trailingCharacters) else .ok value

/-- A value read before, read with one reader. -/
def ofValue {α : Type} (read : DraftOrigin → DraftReader α) (value : Json) :
    Except RecordFault α :=
  read .value value.toDraft

end DraftReader

end Columnar
