import Columnar.Json.Raw
import Columnar.Proofs.Collections
import Columnar.Proofs.Json.Depth

/-! Texts that stand for values. A text stands for a value when its draft is read as the value,
wherever the text is put; texts of parts are put together to the text of the whole, whoever wrote
them. -/
namespace Columnar.Json

/-- The text is that of a draft which is read as the value. -/
def SpelledBy (value : Json) (octets : Octets) : Prop :=
  ∃ draft, Draft.Spells octets draft ∧ value.ReadAs draft

/-- A value is spelled by its own text when the reader of numbers returns what was written. -/
theorem spelledBy_octets (value : Json) (distinct : value.Distinct)
    (numbers : ∀ number ∈ value.numbers, number.ReadsBack) : value.SpelledBy value.octets :=
  ⟨value.writtenDraft, value.spells, readAs_of_toldBy distinct (value.toldBy_writtenDraft numbers)⟩

theorem spelledBy_integerChars {n : Int}
    (inRange : -0x8000000000000000 ≤ n ∧ n < 0x10000000000000000) :
    (number (.whole n inRange)).SpelledBy (ascii (integerChars n)) := by
  apply spelledBy_octets (number (.whole n inRange)) trivial
  intro other member
  rcases List.mem_singleton.1 member with rfl
  exact JsonNumber.readsBack_whole inRange

/-- The text of a numeral spells the number it is read as. -/
theorem spelledBy_numeral {n : Numeral} (wellFormed : n.WellFormed) {value : JsonNumber}
    (read : Json.read n.octets = .ok (.number value)) :
    (number value).SpelledBy n.octets := by
  refine ⟨_, Draft.spells_numeral wellFormed, readAs_of_toJson ?_⟩
  rw [wellFormed.read_octets] at read
  exact read

/-- The value of a document that is kept as it is has been read from its draft. -/
theorem toJson_of_raw {raw : RawJson} {value : Json} (read : raw.value = .ok value) :
    (Draft.scan raw.octets).draft.toJson = .ok value := by
  obtain ⟨found, whole, ended⟩ := bind_eq_ok_iff.1 read
  split at ended
  · cases ended
  · cases ended
    exact whole

/-- A document that is kept as it is spells its value. -/
theorem spelledBy_raw {raw : RawJson} {value : Json} (read : raw.value = .ok value) :
    value.SpelledBy raw.octets :=
  ⟨_, Draft.spells_of_sound raw.sound, readAs_of_toJson (toJson_of_raw read)⟩

/-- Texts of items make up the text of a list. -/
theorem spelledBy_list {items : List Json} {texts : List Octets}
    (all : List.Forall₂ SpelledBy items texts) : (list items).SpelledBy (listOctets texts) := by
  have parts : ∃ drafts : List (Octets × Draft), drafts.map Prod.fst = texts ∧
      (∀ part ∈ drafts, Draft.Spells part.1 part.2) ∧
      List.Forall₂ ReadAs items (drafts.map Prod.snd) := by
    induction all with
    | nil => exact ⟨[], rfl, List.forall_mem_nil _, .nil⟩
    | @cons item text items texts here _ ih =>
      obtain ⟨draft, spells, read⟩ := here
      obtain ⟨drafts, same, later, readLater⟩ := ih
      refine ⟨(text, draft) :: drafts, by rw [List.map_cons, same], ?_, .cons read readLater⟩
      exact List.forall_mem_cons.2 ⟨spells, later⟩
  obtain ⟨drafts, rfl, spells, read⟩ := parts
  exact ⟨_, Draft.spells_list drafts spells, readAs_list read⟩

/-- A member of an object, spelled by a key and a text. -/
def MemberSpelledBy (member : String × Json) (text : String × Octets) : Prop :=
  text.1 = member.1 ∧ member.2.SpelledBy text.2

/-- Texts of members make up the text of an object. -/
theorem spelledBy_object {members : List (String × Json)} {texts : List (String × Octets)}
    (distinct : (members.map Prod.fst).Nodup) (all : List.Forall₂ MemberSpelledBy members texts) :
    (object members).SpelledBy (objectOctets texts) := by
  have parts : ∃ told : List Draft.Member,
      (told.map fun member => (member.key, member.octets)) = texts ∧
      (∀ member ∈ told, Draft.Spells member.octets member.draft) ∧
      List.Forall₂ MemberReadAs members (told.map Draft.Member.read) := by
    clear distinct
    induction all with
    | nil => exact ⟨[], rfl, List.forall_mem_nil _, .nil⟩
    | @cons member text members texts here _ ih =>
      obtain ⟨key, value⟩ := member
      obtain ⟨key', octets⟩ := text
      obtain ⟨rfl, draft, spells, read⟩ := here
      obtain ⟨told, same, later, readLater⟩ := ih
      refine ⟨⟨key', octets, draft⟩ :: told, by rw [List.map_cons, same], ?_,
        .cons ⟨rfl, read⟩ readLater⟩
      exact List.forall_mem_cons.2 ⟨spells, later⟩
  obtain ⟨told, rfl, spells, read⟩ := parts
  exact ⟨_, Draft.spells_object told spells, readAs_object distinct (.refl _) read⟩

/-- A text that is not too deep is read as a value that tells what the text stands for. -/
theorem read_of_spelledBy {value : Json} {octets : Octets} (spelled : value.SpelledBy octets)
    (shallow : Draft.Shallow octets) :
    ∃ found, Json.read octets = .ok found ∧ value.ToldBy found.toDraft := by
  obtain ⟨draft, spells, found, read, told, -⟩ := spelled
  obtain ⟨scanned, here, same⟩ := Draft.scan_of_spells spells
  refine ⟨found, ?_, told⟩
  rw [Json.read, here, same shallow, read]
  rfl

end Columnar.Json
