import Columnar.Json.Draft

/-! Reading whole JSON documents. Every part of the text must be sound, in the order of the text;
of repeated keys the last one counts. -/
namespace Columnar

namespace Draft

mutual

/-- The value of a draft, or the first fault met while reading it. -/
def toJson : Draft → Except SyntaxFault Json
  | null => .ok .null
  | bool b => .ok (.bool b)
  | number reading => reading.map Json.number
  | string text => text.reading.map Json.string
  | list items ending => (itemsToJson ending items).map Json.list
  | object members ending => (membersToJson ending [] members).map Json.object
  | broken reading _ => .error reading
  | deep _ => .error .tooDeep

def itemsToJson (ending : DraftEnd) : List Draft → Except SyntaxFault (List Json)
  | [] => match ending with
    | .closed => .ok []
    | .cut reading _ => .error reading
  | item :: rest =>
    match item.toJson with
    | .error fault => .error fault
    | .ok value => (itemsToJson ending rest).map (value :: ·)

/-- The members read so far come first; each further one is set among them. -/
def membersToJson (ending : DraftEnd) (done : List (String × Json)) :
    List (DraftText × Draft) → Except SyntaxFault (List (String × Json))
  | [] => match ending with
    | .closed => .ok done
    | .cut reading _ => .error reading
  | (key, draft) :: rest =>
    match key.reading with
    | .error fault => .error fault
    | .ok key =>
      match draft.toJson with
      | .error fault => .error fault
      | .ok value => membersToJson ending (Keyed.insert key value done) rest

end

end Draft

namespace Json

mutual

/-- A value as a draft without faults. -/
def toDraft : Json → Draft
  | null => .null
  | bool b => .bool b
  | number n => .number (.ok n)
  | string s => .string ⟨.ok s, none⟩
  | list items => .list (itemDrafts items) .closed
  | object members => .object (memberDrafts members) .closed

def itemDrafts : List Json → List Draft
  | [] => []
  | item :: rest => item.toDraft :: itemDrafts rest

def memberDrafts : List (String × Json) → List (DraftText × Draft)
  | [] => []
  | (key, value) :: rest => (⟨.ok key, none⟩, value.toDraft) :: memberDrafts rest

end

/-- The value of a document. What stands after it is looked at last. -/
def read (octets : Octets) : Except SyntaxFault Json := do
  let scan := Draft.scan octets
  let value ← scan.draft.toJson
  if scan.trailing then .error .trailingCharacters else .ok value

end Json

end Columnar
