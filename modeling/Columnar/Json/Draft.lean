import Columnar.Json.Token

/-! A JSON document as far as its text makes sense. A draft keeps members in the order of the text
and repeated keys; where the text goes wrong, it says which fault a reader of that place meets and
which fault someone who only passes over it. Whether a document is wanted whole, by parts or only
checked, its text is read this one way. -/
namespace Columnar

/-- How a list or an object ends. -/
inductive DraftEnd where
  | closed
  | cut (reading skipping : SyntaxFault)
deriving DecidableEq, Repr

/-- A string of a draft: what reading it gives, and the fault of passing over it. -/
structure DraftText where
  reading : Except SyntaxFault String
  skipFault : Option SyntaxFault

/-- A document as far as it goes. What is nested beyond the limit is marked: it can be passed over
but not read. -/
inductive Draft where
  | null
  | bool (b : Bool)
  | number (reading : Except SyntaxFault JsonNumber)
  | string (text : DraftText)
  | list (items : List Draft) (ending : DraftEnd)
  | object (members : List (DraftText × Draft)) (ending : DraftEnd)
  | broken (reading skipping : SyntaxFault)
  | deep (inner : Draft)

instance : Inhabited Draft := ⟨.null⟩

/-- A list or object that has been opened and not yet closed, with what it holds so far, the last
first. -/
inductive OpenDraft where
  | list (items : List Draft)
  | object (members : List (DraftText × Draft))
  | member (members : List (DraftText × Draft)) (key : DraftText)

/-- What the next token should be. -/
inductive DraftPhase where
  | item
  | firstItem
  | separator
  | firstKey
  | key
  | colon

/-- The outcome of reading a text: its draft, whether more follows it, and the fault of passing
over the whole text. -/
structure DraftScan where
  draft : Draft
  trailing : Bool
  skipFault : Option SyntaxFault

/-- A string of the text, with both ways of going over it. -/
def QuotedString.draft (s : QuotedString) : DraftText := ⟨s.read, s.skipFault⟩

namespace Draft

/-- Documents may be nested this deep. -/
def depthLimit : Nat := 127

/-- A list or object that stands inside others, of which no more are counted than the limit. -/
def nestedIn (outer : List OpenDraft) (draft : Draft) : Draft :=
  if (outer.take depthLimit).length = depthLimit then .deep draft else draft

/-- The whole draft when the text goes wrong inside the given one: everything open ends there. -/
def abandon (draft : Draft) : List OpenDraft → Draft
  | [] => draft
  | .list items :: outer => abandon (nestedIn outer (.list (draft :: items).reverse .closed)) outer
  | .object members :: outer => abandon (nestedIn outer (.object members.reverse .closed)) outer
  | .member members key :: outer =>
    abandon (nestedIn outer (.object ((key, draft) :: members).reverse .closed)) outer

/-- The end of the text, or a token that cannot begin a value, where a value should stand. -/
def failValue (reading skipping : SyntaxFault) (stack : List OpenDraft) : DraftScan :=
  ⟨abandon (.broken reading skipping) stack, false, some skipping⟩

/-- A fault between the parts of the innermost list or object. -/
def failBetween (reading skipping : SyntaxFault) : List OpenDraft → DraftScan
  | .list items :: outer =>
    ⟨abandon (nestedIn outer (.list items.reverse (.cut reading skipping))) outer, false,
      some skipping⟩
  | .object members :: outer =>
    ⟨abandon (nestedIn outer (.object members.reverse (.cut reading skipping))) outer, false,
      some skipping⟩
  | .member members key :: outer =>
    ⟨abandon (.broken reading skipping) (.member members key :: outer), false, some skipping⟩
  | [] => ⟨.broken reading skipping, false, some skipping⟩

/-- A finished value put where it belongs: none is left open when it is the whole document. -/
def place (draft : Draft) : List OpenDraft → Option (List OpenDraft)
  | [] => none
  | .list items :: outer => some (.list (draft :: items) :: outer)
  | .member members key :: outer => some (.object ((key, draft) :: members) :: outer)
  | .object members :: outer => some (.object members :: outer)

/-- The faults at the end of the text. -/
def atEnd (stack : List OpenDraft) : DraftPhase → DraftScan
  | .item => failValue .endInValue .endInValue stack
  | .firstItem => failBetween .endInList .endInList stack
  | .firstKey => failBetween .endInObject .endInObject stack
  | .key => failBetween .endInValue .endInObject stack
  | .colon => failBetween .endInObject .endInObject stack
  | .separator => match stack with
    | .list _ :: _ => failBetween .endInList .endInList stack
    | _ => failBetween .endInObject .endInObject stack

/-- Reading token by token. The stack holds what is open, the innermost first. -/
def build (stack : List OpenDraft) (phase : DraftPhase) : List JsonToken → DraftScan
  | [] => atEnd stack phase
  | token :: rest =>
    let finish (draft : Draft) (outer : List OpenDraft) : DraftScan :=
      match place draft outer with
      | some stack => build stack .separator rest
      | none =>
        if rest.isEmpty then ⟨draft, false, none⟩ else ⟨draft, true, some .trailingCharacters⟩
    let beginValue (closing : SyntaxFault) : DraftScan :=
      match token with
      | .openList => build (.list [] :: stack) .firstItem rest
      | .openObject => build (.object [] :: stack) .firstKey rest
      | .word .null => finish .null stack
      | .word .true => finish (.bool true) stack
      | .word .false => finish (.bool false) stack
      | .number n => finish (.number n.value) stack
      | .string s =>
        match s.skipFault with
        | none => finish (.string s.draft) stack
        | some fault => ⟨abandon (.string s.draft) stack, false, some fault⟩
      | .brokenWord fault => failValue fault fault stack
      | .brokenNumber reading skipping => failValue reading skipping stack
      | .closeList => failValue closing .expectedValue stack
      | .closeObject | .comma | .colon | .stray => failValue .expectedValue .expectedValue stack
    let readKey (s : QuotedString) : DraftScan :=
      match stack with
      | .object members :: outer =>
        match s.skipFault with
        | none => build (.member members s.draft :: outer) .colon rest
        | some fault => ⟨abandon .null (.member members s.draft :: outer), false, some fault⟩
      | _ => failBetween .keyNotString .keyNotString stack
    match phase with
    | .item => beginValue <| match stack with
      | .list _ :: _ => .trailingComma
      | _ => .expectedValue
    | .firstItem => match token, stack with
      | .closeList, .list items :: outer =>
        finish (nestedIn outer (.list items.reverse .closed)) outer
      | _, _ => beginValue .expectedValue
    | .separator => match token, stack with
      | .comma, .list _ :: _ => build stack .item rest
      | .comma, .object _ :: _ => build stack .key rest
      | .closeList, .list items :: outer =>
        finish (nestedIn outer (.list items.reverse .closed)) outer
      | .closeObject, .object members :: outer =>
        finish (nestedIn outer (.object members.reverse .closed)) outer
      | _, .list _ :: _ => failBetween .expectedListSeparator .expectedListSeparator stack
      | _, _ => failBetween .expectedObjectSeparator .expectedObjectSeparator stack
    | .firstKey => match token, stack with
      | .closeObject, .object members :: outer =>
        finish (nestedIn outer (.object members.reverse .closed)) outer
      | .string s, _ => readKey s
      | _, _ => failBetween .keyNotString .keyNotString stack
    | .key => match token with
      | .string s => readKey s
      | .closeObject => failBetween .trailingComma .keyNotString stack
      | _ => failBetween .keyNotString .keyNotString stack
    | .colon => match token with
      | .colon => build stack .item rest
      | _ => failBetween .expectedColon .expectedColon stack

/-- The draft of a text. -/
def scan (octets : Octets) : DraftScan := build [] .item (JsonToken.scan octets)

/-- The fault of passing over a draft. Only the last part of a list or object can have one. -/
def skipFault : Draft → Option SyntaxFault
  | .string text => text.skipFault
  | .broken _ skipping => some skipping
  | .deep inner => inner.skipFault
  | .list items ending => (skipItems items).or (endFault ending)
  | .object members ending => (skipMembers members).or (endFault ending)
  | _ => none
where
  endFault : DraftEnd → Option SyntaxFault
    | .closed => none
    | .cut _ skipping => some skipping
  skipItems : List Draft → Option SyntaxFault
    | [] => none
    | item :: rest => item.skipFault.or (skipItems rest)
  skipMembers : List (DraftText × Draft) → Option SyntaxFault
    | [] => none
    | (key, value) :: rest => (key.skipFault.or value.skipFault).or (skipMembers rest)

end Draft

/-- The fault of the syntax of a text, if it has one. -/
def Json.syntaxFault? (octets : Octets) : Option SyntaxFault :=
  (Draft.scan octets).skipFault

end Columnar
