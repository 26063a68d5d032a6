import Columnar.Json.Reading
import Columnar.Proofs.Json.Drafts

/-! Values and their text. The text of a value is sound and spells the value, up to what the reader
of numbers makes of its numbers. -/
namespace Columnar

open JsonToken (scan)

/-- The text of a numeral is read as its number. -/
theorem Numeral.WellFormed.read_octets {n : Numeral} (wellFormed : n.WellFormed) :
    Json.read n.octets = n.value.map Json.number := by
  have stops : Numeral.Stops [] := trivial
  have token := JsonToken.scan_numeral wellFormed stops
  rw [List.append_nil] at token
  obtain ⟨found, scanned, equal⟩ := Draft.scan_of_spells (Draft.spells_numeral wellFormed)
  have same : found = .number n.value := equal (by rw [token]; rfl)
  rw [Json.read, scanned, same]
  cases n.value <;> rfl

namespace JsonNumber

/-- What the reader of numbers makes of the text of a number. -/
def reread (number : JsonNumber) : Except SyntaxFault JsonNumber :=
  match Numeral.scan (Json.ascii number.chars) with
  | (.numeral n, _) => n.value
  | (.broken reading _, _) => .error reading

/-- The reader of numbers returns the number that was written. -/
def ReadsBack (number : JsonNumber) : Prop :=
  Json.read (Json.number number).octets = .ok (.number number)

theorem spells (number : JsonNumber) :
    Draft.Spells (Json.ascii number.chars) (.number number.reread) := by
  obtain ⟨n, wellFormed, spelled⟩ := number.exists_numeral
  have stops : Numeral.Stops [] := trivial
  have scanned := Numeral.scan_octets wellFormed stops
  rw [List.append_nil] at scanned
  have value : number.reread = n.value := by rw [reread, spelled, scanned]
  rw [value, spelled]
  exact Draft.spells_numeral wellFormed

/-- Reading the text of a number alone is reading the number. -/
theorem read_octets (number : JsonNumber) :
    Json.read (Json.number number).octets = number.reread.map Json.number := by
  obtain ⟨n, wellFormed, spelled⟩ := number.exists_numeral
  have stops : Numeral.Stops [] := trivial
  have scanned := Numeral.scan_octets wellFormed stops
  rw [List.append_nil] at scanned
  rw [Json.octets, reread, spelled, wellFormed.read_octets, scanned]

theorem readsBack_iff (number : JsonNumber) : number.ReadsBack ↔ number.reread = .ok number := by
  rw [ReadsBack, read_octets]
  cases number.reread with
  | error fault => exact ⟨nofun, nofun⟩
  | ok other =>
    simp only [Except.map, Except.ok.injEq, Json.number.injEq]

instance (number : JsonNumber) : Decidable number.ReadsBack :=
  decidable_of_iff (number.reread.toOption = some number) <| by
    rw [readsBack_iff]
    cases number.reread <;> simp [Except.toOption]

/-- An integer is read back as it was written. -/
theorem readsBack_whole {n : Int} (inRange : -0x8000000000000000 ≤ n ∧ n < 0x10000000000000000) :
    (whole n inRange).ReadsBack := by
  have stops : Numeral.Stops [] := trivial
  have scanned := Numeral.scan_octets (wellFormed_ofInt n) stops
  rw [List.append_nil] at scanned
  rw [readsBack_iff, reread, chars, ascii_integerChars, scanned]
  exact value_ofInt inRange

end JsonNumber

namespace Json

mutual

/-- The numbers that occur in a value. -/
def numbers : Json → List JsonNumber
  | number n => [n]
  | list items => itemNumbers items
  | object members => memberNumbers members
  | _ => []

def itemNumbers : List Json → List JsonNumber
  | [] => []
  | item :: rest => item.numbers ++ itemNumbers rest

def memberNumbers : List (String × Json) → List JsonNumber
  | [] => []
  | (_, value) :: rest => value.numbers ++ memberNumbers rest

end

theorem mem_itemNumbers {number : JsonNumber} {items : List Json} :
    number ∈ itemNumbers items ↔ ∃ item ∈ items, number ∈ item.numbers := by
  induction items with
  | nil => simp [itemNumbers]
  | cons item rest ih => simp [itemNumbers, ih]

theorem mem_memberNumbers {number : JsonNumber} {members : List (String × Json)} :
    number ∈ memberNumbers members ↔ ∃ member ∈ members, number ∈ member.2.numbers := by
  induction members with
  | nil => simp [memberNumbers]
  | cons member rest ih =>
    obtain ⟨key, value⟩ := member
    simp [memberNumbers, ih]

mutual

/-- What the text of a value spells. -/
def writtenDraft : Json → Draft
  | null => .null
  | bool b => .bool b
  | number n => .number n.reread
  | string s => .string ⟨.ok s, none⟩
  | list items => .list (itemsWritten items) .closed
  | object members => .object (membersWritten members) .closed

def itemsWritten : List Json → List Draft
  | [] => []
  | item :: rest => item.writtenDraft :: itemsWritten rest

def membersWritten : List (String × Json) → List (DraftText × Draft)
  | [] => []
  | (key, value) :: rest => (⟨.ok key, none⟩, value.writtenDraft) :: membersWritten rest

end

/-- Items as they are written and as they are read. -/
private def itemParts : List Json → List (Octets × Draft)
  | [] => []
  | item :: rest => (item.octets, item.writtenDraft) :: itemParts rest

private def memberParts : List (String × Json) → List Draft.Member
  | [] => []
  | (key, value) :: rest => ⟨key, value.octets, value.writtenDraft⟩ :: memberParts rest

private theorem itemParts_eq (items : List Json) :
    (itemParts items).map Prod.fst = itemOctets items ∧
      (itemParts items).map Prod.snd = itemsWritten items := by
  induction items with
  | nil => exact ⟨rfl, rfl⟩
  | cons item rest ih =>
    simp only [itemParts, itemOctets, itemsWritten, List.map_cons, ih.1, ih.2]
    exact ⟨trivial, trivial⟩

private theorem memberParts_eq (members : List (String × Json)) :
    ((memberParts members).map fun member => (member.key, member.octets)) =
        memberOctets members ∧
      (memberParts members).map Draft.Member.read = membersWritten members := by
  induction members with
  | nil => exact ⟨rfl, rfl⟩
  | cons member rest ih =>
    obtain ⟨key, value⟩ := member
    simp only [memberParts, memberOctets, membersWritten, List.map_cons, ih.1, ih.2]
    exact ⟨trivial, rfl⟩

mutual

/-- The text of a value spells the value. -/
theorem spells (value : Json) : Draft.Spells value.octets value.writtenDraft := by
  cases value with
  | null => exact Draft.spells_null
  | bool b =>
    cases b with
    | true => exact Draft.spells_true
    | false => exact Draft.spells_false
  | number n => exact n.spells
  | string s => exact Draft.spells_string s
  | list items =>
    obtain ⟨octets, drafts⟩ := itemParts_eq items
    rw [Json.octets, writtenDraft, ← octets, ← drafts]
    exact Draft.spells_list _ (spells_items items)
  | object members =>
    obtain ⟨octets, drafts⟩ := memberParts_eq members
    rw [Json.octets, writtenDraft, ← octets, ← drafts]
    exact Draft.spells_object _ (spells_members members)

private theorem spells_items (items : List Json) :
    ∀ part ∈ itemParts items, Draft.Spells part.1 part.2 := by
  cases items with
  | nil => exact nofun
  | cons item rest =>
    intro part member
    rcases List.mem_cons.1 member with rfl | member
    · exact item.spells
    · exact spells_items rest part member

private theorem spells_members (members : List (String × Json)) :
    ∀ part ∈ memberParts members, Draft.Spells part.octets part.draft := by
  cases members with
  | nil => exact nofun
  | cons member rest =>
    obtain ⟨key, value⟩ := member
    intro part inParts
    rcases List.mem_cons.1 inParts with rfl | inParts
    · exact value.spells
    · exact spells_members rest part inParts

end

theorem syntaxFault?_of_spells {octets : Octets} {draft : Draft}
    (spells : Draft.Spells octets draft) : syntaxFault? octets = none := by
  obtain ⟨found, scanned, -⟩ := Draft.scan_of_spells spells
  rw [syntaxFault?, scanned]

/-- The text of a value is a sound document. -/
theorem syntaxFault?_octets (value : Json) : syntaxFault? value.octets = none :=
  syntaxFault?_of_spells value.spells

end Json

end Columnar
