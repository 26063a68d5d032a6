import Columnar.Json.FreeForm
import Columnar.Proofs.Json.Values
import Columnar.Proofs.Keyed
import Mathlib.Data.List.Perm.Basic

/-! What a draft says. A draft tells a value when it has the parts of the value, the members of
objects in any order. Reading such a draft as a value may bring the members into another order,
but never changes what is told. -/
namespace Columnar

namespace Json

mutual

/-- The draft has the parts of the value, the members of objects in any order. -/
def ToldBy : Json → Draft → Prop
  | null, draft => draft = .null
  | bool b, draft => draft = .bool b
  | number n, draft => draft = .number (.ok n)
  | string s, draft => draft = .string ⟨.ok s, none⟩
  | list items, draft => ∃ drafts, draft = .list drafts .closed ∧ ItemsTold items drafts
  | object members, draft =>
    ∃ drafts told, draft = .object drafts .closed ∧ drafts.Perm told ∧ MembersTold members told

def ItemsTold : List Json → List Draft → Prop
  | [], drafts => drafts = []
  | item :: rest, drafts =>
    ∃ draft others, drafts = draft :: others ∧ item.ToldBy draft ∧ ItemsTold rest others

def MembersTold : List (String × Json) → List (DraftText × Draft) → Prop
  | [], told => told = []
  | (key, value) :: rest, told =>
    ∃ draft others, told = (⟨.ok key, none⟩, draft) :: others ∧ value.ToldBy draft ∧
      MembersTold rest others

end

/-- A member of an object and what tells it. -/
def MemberTold (member : String × Json) (told : DraftText × Draft) : Prop :=
  told.1 = ⟨.ok member.1, none⟩ ∧ member.2.ToldBy told.2

theorem itemsTold_iff {items : List Json} {drafts : List Draft} :
    ItemsTold items drafts ↔ List.Forall₂ ToldBy items drafts := by
  induction items generalizing drafts with
  | nil => simp [ItemsTold]
  | cons item rest ih =>
    simp only [ItemsTold, ih]
    constructor
    · rintro ⟨draft, others, rfl, here, later⟩
      exact .cons here later
    · rintro ⟨⟩
      next draft others here later => exact ⟨draft, others, rfl, here, later⟩

theorem membersTold_iff {members : List (String × Json)} {told : List (DraftText × Draft)} :
    MembersTold members told ↔ List.Forall₂ MemberTold members told := by
  induction members generalizing told with
  | nil => simp [MembersTold]
  | cons member rest ih =>
    obtain ⟨key, value⟩ := member
    simp only [MembersTold, ih]
    constructor
    · rintro ⟨draft, others, rfl, here, later⟩
      exact .cons ⟨rfl, here⟩ later
    · rintro ⟨⟩
      next told others here later =>
        obtain ⟨key', draft⟩ := told
        obtain ⟨name, here⟩ := here
        cases name
        exact ⟨draft, others, rfl, here, later⟩

/-- Only null is told by the draft of nothing. -/
theorem eq_null_of_toldBy {value : Json} (told : value.ToldBy .null) : value = .null := by
  cases value with
  | null => rfl
  | list items =>
    obtain ⟨drafts, shape, -⟩ := told
    cases shape
  | object members =>
    obtain ⟨drafts, others, shape, -⟩ := told
    cases shape
  | _ => cases told

mutual

theorem toldBy_toDraft (value : Json) : value.ToldBy value.toDraft := by
  cases value with
  | list items => exact ⟨_, rfl, itemsTold_itemDrafts items⟩
  | object members => exact ⟨_, _, rfl, .refl _, membersTold_memberDrafts members⟩
  | _ => rfl

theorem itemsTold_itemDrafts (items : List Json) : ItemsTold items (itemDrafts items) := by
  cases items with
  | nil => rfl
  | cons item rest =>
    exact ⟨_, _, rfl, item.toldBy_toDraft, itemsTold_itemDrafts rest⟩

theorem membersTold_memberDrafts (members : List (String × Json)) :
    MembersTold members (memberDrafts members) := by
  cases members with
  | nil => rfl
  | cons member rest =>
    exact ⟨_, _, rfl, member.2.toldBy_toDraft, membersTold_memberDrafts rest⟩

end

mutual

/-- What is written tells the value when the reader of numbers returns what was written. -/
theorem toldBy_writtenDraft (value : Json)
    (numbers : ∀ number ∈ value.numbers, number.ReadsBack) : value.ToldBy value.writtenDraft := by
  cases value with
  | number n =>
    have same := n.readsBack_iff.1 (numbers n (by simp [Json.numbers]))
    rw [ToldBy, writtenDraft, same]
  | list items => exact ⟨_, rfl, itemsTold_itemsWritten items numbers⟩
  | object members => exact ⟨_, _, rfl, .refl _, membersTold_membersWritten members numbers⟩
  | _ => rfl

theorem itemsTold_itemsWritten (items : List Json)
    (numbers : ∀ number ∈ itemNumbers items, number.ReadsBack) :
    ItemsTold items (itemsWritten items) := by
  cases items with
  | nil => rfl
  | cons item rest =>
    have here : ∀ number ∈ item.numbers, number.ReadsBack := by
      intro number member
      exact numbers number (by simp [itemNumbers, member])
    have later : ∀ number ∈ itemNumbers rest, number.ReadsBack := by
      intro number member
      exact numbers number (by simp [itemNumbers, member])
    exact ⟨_, _, rfl, item.toldBy_writtenDraft here, itemsTold_itemsWritten rest later⟩

theorem membersTold_membersWritten (members : List (String × Json))
    (numbers : ∀ number ∈ memberNumbers members, number.ReadsBack) :
    MembersTold members (membersWritten members) := by
  cases members with
  | nil => rfl
  | cons member rest =>
    obtain ⟨key, value⟩ := member
    have here : ∀ number ∈ value.numbers, number.ReadsBack := by
      intro number member
      exact numbers number (by simp [memberNumbers, member])
    have later : ∀ number ∈ memberNumbers rest, number.ReadsBack := by
      intro number member
      exact numbers number (by simp [memberNumbers, member])
    exact ⟨_, _, rfl, value.toldBy_writtenDraft here, membersTold_membersWritten rest later⟩

end

mutual

/-- No object in the value has two members of one name. -/
def Distinct : Json → Prop
  | list items => ItemsDistinct items
  | object members => (members.map Prod.fst).Nodup ∧ MembersDistinct members
  | _ => True

def ItemsDistinct : List Json → Prop
  | [] => True
  | item :: rest => item.Distinct ∧ ItemsDistinct rest

def MembersDistinct : List (String × Json) → Prop
  | [] => True
  | (_, value) :: rest => value.Distinct ∧ MembersDistinct rest

end

theorem membersDistinct_iff {members : List (String × Json)} :
    MembersDistinct members ↔ ∀ member ∈ members, member.2.Distinct := by
  induction members with
  | nil => simp [MembersDistinct]
  | cons member rest ih =>
    obtain ⟨key, value⟩ := member
    simp [MembersDistinct, ih]

theorem itemsDistinct_iff {items : List Json} :
    ItemsDistinct items ↔ ∀ item ∈ items, item.Distinct := by
  induction items with
  | nil => simp [ItemsDistinct]
  | cons item rest ih => simp [ItemsDistinct, ih]

mutual

theorem distinct_of_ordered {value : Json} (ordered : value.Ordered) : value.Distinct := by
  cases value with
  | list items => exact itemsDistinct_of_ordered ordered
  | object members =>
    exact ⟨Keyed.nodup_of_ascending ordered.1, membersDistinct_of_ordered ordered.2⟩
  | _ => trivial

theorem itemsDistinct_of_ordered {items : List Json} (ordered : ItemsOrdered items) :
    ItemsDistinct items := by
  cases items with
  | nil => trivial
  | cons item rest => exact ⟨distinct_of_ordered ordered.1, itemsDistinct_of_ordered ordered.2⟩

theorem membersDistinct_of_ordered {members : List (String × Json)}
    (ordered : MembersOrdered members) : MembersDistinct members := by
  cases members with
  | nil => trivial
  | cons member rest =>
    obtain ⟨key, value⟩ := member
    exact ⟨distinct_of_ordered ordered.1, membersDistinct_of_ordered ordered.2⟩

end

end Json

section Members

variable {α : Type} {read : DraftReader α}

/-- A member of an object and what a reader makes of it. -/
def DraftReader.MemberRead (read : DraftReader α) (told : DraftText × Draft)
    (member : String × α) : Prop :=
  told.1 = ⟨.ok member.1, none⟩ ∧ read told.2 = .ok member.2

/-- Members that can all be read are set one after the other. -/
theorem DraftReader.members_eq_ok {drafts : List (DraftText × Draft)}
    {members : List (String × α)} (all : List.Forall₂ read.MemberRead drafts members)
    (done : List (String × α)) :
    DraftReader.members read .closed done drafts = .ok (Keyed.insertAll members done) := by
  induction all generalizing done with
  | nil => rfl
  | cons here _ ih =>
    next told member drafts members _ =>
    obtain ⟨key, draft⟩ := told
    obtain ⟨name, value⟩ := member
    obtain ⟨keyRead, valueRead⟩ := here
    cases keyRead
    dsimp only at valueRead
    simp only [DraftReader.members, valueRead]
    exact ih _

/-- The order of the members of an object does not matter to what is read, as long as no two have
one name. -/
theorem DraftReader.members_of_perm {drafts told : List (DraftText × Draft)}
    {members : List (String × α)} (same : drafts.Perm told)
    (all : List.Forall₂ read.MemberRead told members) (distinct : (members.map Prod.fst).Nodup) :
    ∃ found, DraftReader.members read .closed [] drafts = .ok found ∧ found.Perm members ∧
      Keyed.Ascending found := by
  obtain ⟨others, here, moved⟩ := List.perm_comp_forall₂ same all
  refine ⟨_, DraftReader.members_eq_ok here [], ?_, Keyed.ascending_insertAll _ List.Pairwise.nil⟩
  have once : ((others ++ []).map Prod.fst).Nodup := by
    rw [List.append_nil]
    exact (moved.map Prod.fst).nodup_iff.2 distinct
  exact (Keyed.insertAll_perm once).trans (by rwa [List.append_nil])

end Members

namespace Json

/-- A draft is read as another value that is told the same way, and as the value itself when that
has its members in order. -/
def ReadAs (value : Json) (draft : Draft) : Prop :=
  ∃ found, draft.toJson = .ok found ∧ value.ToldBy found.toDraft ∧ (value.Ordered → found = value)

theorem memberDrafts_eq (members : List (String × Json)) :
    memberDrafts members = members.map fun member => (⟨.ok member.1, none⟩, member.2.toDraft) := by
  induction members with
  | nil => rfl
  | cons member rest ih => rw [memberDrafts, ih, List.map_cons]

private theorem membersToJson_of_members {drafts : List (DraftText × Draft)}
    {found : List (String × Json)}
    (read : DraftReader.members DraftReader.json .closed [] drafts = .ok found) :
    Draft.membersToJson .closed [] drafts = .ok found := by
  rw [DraftReader.members_json] at read
  cases inner : Draft.membersToJson .closed [] drafts with
  | error fault => rw [inner] at read; cases read
  | ok others => rw [inner] at read; cases read; rfl

/-- What has been read is read as itself. -/
theorem readAs_of_toJson {draft : Draft} {value : Json} (read : draft.toJson = .ok value) :
    value.ReadAs draft :=
  ⟨value, read, value.toldBy_toDraft, fun _ => rfl⟩

/-- Drafts that are read as items are a list that is read as the list of them. -/
theorem readAs_list {items : List Json} {drafts : List Draft}
    (all : List.Forall₂ ReadAs items drafts) : (list items).ReadAs (.list drafts .closed) := by
  have parts : ∃ found, Draft.itemsToJson .closed drafts = .ok found ∧
      ItemsTold items (itemDrafts found) ∧ (ItemsOrdered items → found = items) := by
    induction all with
    | nil => exact ⟨[], rfl, rfl, fun _ => rfl⟩
    | cons here _ ih =>
      obtain ⟨value, read, again, same⟩ := here
      obtain ⟨found, readLater, againLater, sameLater⟩ := ih
      refine ⟨value :: found, ?_, ⟨_, _, rfl, again, againLater⟩, fun ordered => ?_⟩
      · simp only [Draft.itemsToJson, read, readLater]
        rfl
      · rw [same ordered.1, sameLater ordered.2]
  obtain ⟨found, read, again, same⟩ := parts
  refine ⟨list found, ?_, ⟨_, rfl, again⟩, fun ordered => by rw [same ordered]⟩
  rw [Draft.toJson, read]
  rfl

/-- A part of an object that is read as a member. -/
def MemberReadAs (member : String × Json) (told : DraftText × Draft) : Prop :=
  told.1 = ⟨.ok member.1, none⟩ ∧ member.2.ReadAs told.2

/-- Drafts that are read as members are, in any order, an object that is read as the object of
them. -/
theorem readAs_object {members : List (String × Json)} {drafts told : List (DraftText × Draft)}
    (distinct : (members.map Prod.fst).Nodup) (moved : drafts.Perm told)
    (all : List.Forall₂ MemberReadAs members told) :
    (object members).ReadAs (.object drafts .closed) := by
  have parts : ∃ found, List.Forall₂ DraftReader.json.MemberRead told found ∧
      MembersTold members (memberDrafts found) ∧
      found.map Prod.fst = members.map Prod.fst ∧ (MembersOrdered members → found = members) := by
    clear distinct moved
    induction all with
    | nil => exact ⟨[], .nil, rfl, rfl, fun _ => rfl⟩
    | @cons member part rest parts here _ ih =>
      obtain ⟨key, value⟩ := member
      obtain ⟨name, found, read, again, same⟩ := here
      obtain ⟨more, readLater, againLater, names, sameLater⟩ := ih
      have inJson : DraftReader.json part.2 = .ok found := by rw [DraftReader.json, read]; rfl
      refine ⟨(key, found) :: more, .cons ⟨name, inJson⟩ readLater,
        ⟨_, _, rfl, again, againLater⟩, ?_, fun ordered => ?_⟩
      · rw [List.map_cons, List.map_cons, names]
      · rw [same ordered.1, sameLater ordered.2]
  obtain ⟨found, read, again, names, same⟩ := parts
  have once : (found.map Prod.fst).Nodup := names ▸ distinct
  obtain ⟨sorted, whole, perm, ascending⟩ := DraftReader.members_of_perm moved read once
  refine ⟨object sorted, ?_, ⟨_, _, rfl, ?_, again⟩, fun ordered => ?_⟩
  · rw [Draft.toJson, membersToJson_of_members whole]
    rfl
  · rw [memberDrafts_eq, memberDrafts_eq]
    exact perm.map _
  · rw [same ordered.2] at perm
    rw [Keyed.eq_of_perm perm ascending ordered.1]

mutual

/-- What is told can be read, and is told again by what was read. -/
theorem readAs_of_toldBy {value : Json} (distinct : value.Distinct) {draft : Draft}
    (told : value.ToldBy draft) : value.ReadAs draft := by
  cases value with
  | list items =>
    obtain ⟨drafts, rfl, told⟩ := told
    exact readAs_list (itemsReadAs_of_told distinct told)
  | object members =>
    obtain ⟨drafts, inOrder, rfl, moved, told⟩ := told
    exact readAs_object distinct.1 moved (membersReadAs_of_told distinct.2 told)
  | _ =>
    cases told
    exact readAs_of_toJson rfl

private theorem itemsReadAs_of_told {items : List Json} (distinct : ItemsDistinct items)
    {drafts : List Draft} (told : ItemsTold items drafts) : List.Forall₂ ReadAs items drafts := by
  cases items with
  | nil =>
    cases told
    exact .nil
  | cons item rest =>
    obtain ⟨draft, others, rfl, here, later⟩ := told
    exact .cons (readAs_of_toldBy distinct.1 here) (itemsReadAs_of_told distinct.2 later)

private theorem membersReadAs_of_told {members : List (String × Json)}
    (distinct : MembersDistinct members) {told : List (DraftText × Draft)}
    (all : MembersTold members told) : List.Forall₂ MemberReadAs members told := by
  cases members with
  | nil =>
    cases all
    exact .nil
  | cons member rest =>
    obtain ⟨key, value⟩ := member
    obtain ⟨draft, others, rfl, here, later⟩ := all
    exact .cons ⟨rfl, readAs_of_toldBy distinct.1 here⟩ (membersReadAs_of_told distinct.2 later)

end

/-- A value in order is read back as it is. -/
theorem toJson_of_toldBy {value : Json} (ordered : value.Ordered) {draft : Draft}
    (told : value.ToldBy draft) : draft.toJson = .ok value := by
  obtain ⟨found, read, -, same⟩ := readAs_of_toldBy (distinct_of_ordered ordered) told
  rw [read, same ordered]

end Json

end Columnar
