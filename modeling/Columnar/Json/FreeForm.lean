import Columnar.Json.Record

/-! Values of no fixed form, as settings hold them. Their objects have the members in the order of
the keys, each key once. Every value that has been read is of this kind, so that such a value stands
for its content and not for one of several ways to write it. -/
namespace Columnar

namespace Json

mutual

/-- Every object in the value has its members in the order of their keys, each key once. -/
def Ordered : Json → Prop
  | list items => ItemsOrdered items
  | object members => Keyed.Ascending members ∧ MembersOrdered members
  | _ => True

def ItemsOrdered : List Json → Prop
  | [] => True
  | item :: rest => item.Ordered ∧ ItemsOrdered rest

def MembersOrdered : List (String × Json) → Prop
  | [] => True
  | (_, value) :: rest => value.Ordered ∧ MembersOrdered rest

end

theorem itemsOrdered_iff {items : List Json} :
    ItemsOrdered items ↔ ∀ item ∈ items, item.Ordered := by
  induction items with
  | nil => simp [ItemsOrdered]
  | cons item rest ih => simp [ItemsOrdered, ih]

theorem membersOrdered_iff {members : List (String × Json)} :
    MembersOrdered members ↔ ∀ member ∈ members, member.2.Ordered := by
  induction members with
  | nil => simp [MembersOrdered]
  | cons member rest ih =>
    obtain ⟨key, value⟩ := member
    simp [MembersOrdered, ih]

/-- Setting a member to an ordered value keeps an object ordered. -/
theorem ordered_insert {members : List (String × Json)} {value : Json} (key : String)
    (ordered : (object members).Ordered) (here : value.Ordered) :
    (object (Keyed.insert key value members)).Ordered := by
  refine ⟨Keyed.ascending_insert key value ordered.1, membersOrdered_iff.2 fun member inserted => ?_⟩
  rcases Keyed.mem_insert inserted with rfl | before
  · exact here
  · exact membersOrdered_iff.1 ordered.2 member before

end Json

namespace Draft

mutual

/-- What is read is ordered, however it was written. -/
theorem ordered_toJson (draft : Draft) {value : Json} (read : draft.toJson = .ok value) :
    value.Ordered := by
  cases draft with
  | null => cases read; trivial
  | bool b => cases read; trivial
  | number reading =>
    cases reading with
    | error fault => cases read
    | ok number => cases read; trivial
  | string text =>
    simp only [toJson] at read
    cases inner : text.reading with
    | error fault => rw [inner] at read; cases read
    | ok s => rw [inner] at read; cases read; trivial
  | list items ending =>
    simp only [toJson] at read
    cases inner : itemsToJson ending items with
    | error fault => rw [inner] at read; cases read
    | ok values => rw [inner] at read; cases read; exact ordered_items items inner
  | object members ending =>
    simp only [toJson] at read
    cases inner : membersToJson ending [] members with
    | error fault => rw [inner] at read; cases read
    | ok values =>
      rw [inner] at read
      cases read
      exact ordered_members members ⟨List.Pairwise.nil, trivial⟩ inner
  | broken reading skipping => cases read
  | deep inner => cases read

theorem ordered_items {ending : DraftEnd} (drafts : List Draft) {items : List Json}
    (read : itemsToJson ending drafts = .ok items) : Json.ItemsOrdered items := by
  cases drafts with
  | nil =>
    cases ending with
    | closed => cases read; trivial
    | cut reading skipping => cases read
  | cons draft rest =>
    simp only [itemsToJson] at read
    cases first : draft.toJson with
    | error fault => rw [first] at read; cases read
    | ok value =>
      rw [first] at read
      cases others : itemsToJson ending rest with
      | error fault => rw [others] at read; cases read
      | ok values =>
        rw [others] at read
        cases read
        exact ⟨draft.ordered_toJson first, ordered_items rest others⟩

theorem ordered_members {ending : DraftEnd} (drafts : List (DraftText × Draft))
    {done members : List (String × Json)} (before : (Json.object done).Ordered)
    (read : membersToJson ending done drafts = .ok members) : (Json.object members).Ordered := by
  cases drafts with
  | nil =>
    cases ending with
    | closed => cases read; exact before
    | cut reading skipping => cases read
  | cons member rest =>
    obtain ⟨key, draft⟩ := member
    simp only [membersToJson] at read
    cases name : key.reading with
    | error fault => rw [name] at read; cases read
    | ok name' =>
      rw [name] at read
      cases first : draft.toJson with
      | error fault => rw [first] at read; cases read
      | ok value =>
        rw [first] at read
        exact ordered_members rest (Json.ordered_insert name' before (draft.ordered_toJson first)) read

end

end Draft

namespace DraftReader

/-- Members of any values are read like an object among other values. -/
theorem members_json (ending : DraftEnd) (done : List (String × Json))
    (drafts : List (DraftText × Draft)) :
    members json ending done drafts = lift (Draft.membersToJson ending done drafts) := by
  induction drafts generalizing done with
  | nil => cases ending <;> rfl
  | cons member rest ih =>
    obtain ⟨key, draft⟩ := member
    simp only [members, Draft.membersToJson, json]
    cases key.reading with
    | error fault => rfl
    | ok key =>
      cases draft.toJson with
      | error fault => rfl
      | ok value => exact ih _

theorem ordered_mapOf {draft : Draft} {members : List (String × Json)}
    (read : mapOf json draft = .ok members) : (Json.object members).Ordered := by
  cases draft with
  | object drafts ending =>
    rw [mapOf, members_json] at read
    cases inner : Draft.membersToJson ending [] drafts with
    | error fault => rw [inner] at read; cases read
    | ok found =>
      rw [inner] at read
      cases read
      exact Draft.ordered_members drafts ⟨List.Pairwise.nil, trivial⟩ inner
  | _ => cases read

end DraftReader

/-- A value of no fixed form. -/
structure FreeForm where
  value : Json
  ordered : value.Ordered

namespace FreeForm

def same (a b : FreeForm) : Bool := a.value.same b.value

def read : DraftReader FreeForm := fun draft =>
  match found : draft.toJson with
  | .ok value => .ok ⟨value, draft.ordered_toJson found⟩
  | .error fault => .error (.malformed fault)

end FreeForm

/-- An object of no fixed form. -/
structure FreeObject where
  members : List (String × Json)
  ordered : (Json.object members).Ordered

namespace FreeObject

def toJson (free : FreeObject) : Json := .object free.members

def same (a b : FreeObject) : Bool := a.toJson.same b.toJson

def read : DraftReader FreeObject := fun draft =>
  match found : DraftReader.mapOf DraftReader.json draft with
  | .ok members => .ok ⟨members, DraftReader.ordered_mapOf found⟩
  | .error fault => .error fault

end FreeObject

end Columnar
