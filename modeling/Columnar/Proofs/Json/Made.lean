import Columnar.Proofs.Json.Bounds
import Columnar.Proofs.Json.Readers

/-! What readers make of values that have been read. Whatever the members of a record are, and in
whatever form the record stands, what every member keeps is kept by the whole record. -/
namespace Columnar

namespace DraftReader

variable {α β : Type} {width depth : Nat} {read : DraftReader β} {property : β → Prop}

/-- What the reader makes of values in order and within bounds has the property. -/
def Makes (read : DraftReader α) (width depth : Nat) (property : α → Prop) : Prop :=
  ∀ value : Json, value.Ordered → value.Within width depth →
    ∀ result, read value.toDraft = .ok result → property result

theorem makes_any (read : DraftReader β) : read.Makes width depth fun _ => True :=
  fun _ _ _ _ _ => trivial

theorem eq_of_json {value result : Json} (ordered : value.Ordered)
    (ran : json value.toDraft = .ok result) : value = result := by
  rw [(json_gives ordered).reads _ value.toldBy_toDraft] at ran
  exact Except.ok.inj ran

theorem makes_json :
    json.Makes width depth fun value => value.Ordered ∧ value.Within width depth := by
  intro value ordered within result ran
  cases eq_of_json ordered ran
  exact ⟨ordered, within⟩

/-- What is not null is read from something else than null. -/
theorem makes_nullable {other : Option β → Prop} (nothing : other none)
    (makes : ∀ value : Json, value ≠ .null → value.Ordered → value.Within width depth →
      ∀ result, read value.toDraft = .ok result → other (some result)) :
    (nullable read).Makes width depth other := by
  intro value ordered within result ran
  cases value with
  | null =>
    cases ran
    exact nothing
  | _ =>
    obtain ⟨content, contentRead, rfl⟩ := map_eq_ok_iff.1 ran
    refine makes _ ?_ ordered within content contentRead
    exact nofun

theorem makes_optional (makes : read.Makes width depth property) :
    (nullable read).Makes width depth fun content => ∀ x ∈ content, property x := by
  refine makes_nullable nofun fun value _ ordered within result ran => ?_
  rintro x ⟨⟩
  exact makes value ordered within result ran

theorem makes_freeForm : (nullable FreeForm.read).Makes width depth
    fun content => ∀ free ∈ content, free.value ≠ .null ∧ free.value.Within width depth := by
  refine makes_nullable nofun fun value present ordered within result ran => ?_
  rw [(FreeForm.read_gives ⟨value, ordered⟩).reads _ value.toldBy_toDraft] at ran
  cases ran
  rintro free ⟨⟩
  exact ⟨present, within⟩

theorem makes_freeObject : FreeObject.read.Makes width depth
    fun free => free.toJson.Within width depth := by
  intro value ordered within result ran
  cases value with
  | object members =>
    have told := (Json.object members).toldBy_toDraft
    rw [(FreeObject.read_gives ⟨members, ordered⟩).reads _ told] at ran
    cases ran
    exact within
  | _ =>
    unfold FreeObject.read at ran
    split at ran
    next members found => cases found
    next fault failed => cases ran

/-- The items of a list that has been read. -/
private theorem items_of_drafts {items : List Json} {results : List β}
    (ran : DraftReader.items read .closed (Json.itemDrafts items) = .ok results) :
    List.Forall₂ (fun item result => read item.toDraft = .ok result) items results := by
  induction items generalizing results with
  | nil =>
    cases ran
    exact .nil
  | cons item rest ih =>
    rw [Json.itemDrafts, DraftReader.items] at ran
    cases here : read item.toDraft with
    | error fault =>
      rw [here] at ran
      cases ran
    | ok result =>
      rw [here] at ran
      obtain ⟨others, later, rfl⟩ := map_eq_ok_iff.1 ran
      exact .cons here (ih later)

/-- The list that is read of a value has the items of the value, if this is so for each of them. -/
theorem eq_of_listOf {write : β → Json}
    (faithful : ∀ item : Json, item.Ordered → ∀ result, read item.toDraft = .ok result →
      item = write result) {value : Json} {results : List β} (ordered : value.Ordered)
    (ran : listOf read value.toDraft = .ok results) : value = .list (results.map write) := by
  cases value with
  | list items =>
    have same : List.Forall₂ (fun item result => write result = id item) items results :=
      forall₂_imp_of_mem (items_of_drafts ran) fun item member result here =>
        (faithful item (Json.itemsOrdered_iff.1 ordered item member) result here).symm
    rw [map_eq_of_forall₂ same, List.map_id]
  | _ => cases ran

theorem makes_listOf (makes : read.Makes width depth property) :
    (listOf read).Makes width (depth + 1)
      fun results => results.length ≤ width ∧ ∀ result ∈ results, property result := by
  intro value ordered within results ran
  cases value with
  | list items =>
    have all := items_of_drafts ran
    obtain ⟨short, inside⟩ := Json.within_list_iff.1 within
    refine ⟨by rwa [← all.length_eq], fun result member => ?_⟩
    obtain ⟨item, listed, here⟩ := exists_left_of_forall₂ all member
    exact makes item (Json.itemsOrdered_iff.1 ordered item listed) (inside item listed) result here
  | _ => cases ran

section Records

variable {record : α} {keep : α → Prop}

/-- Setting the member keeps what holds of a record. -/
def Member.Keeps (field : Member α) (width depth : Nat) (keep : α → Prop) : Prop :=
  ∀ value : Json, value.Ordered → value.Within width depth → ∀ record, keep record →
    ∀ result, field.set value.toDraft record = .ok result → keep result

theorem keeps_optional {name : String} {inList : Bool} {set : Option β → α → α}
    {other : Option β → Prop} (makes : (nullable read).Makes width depth other)
    (keeps : ∀ content record, other content → keep record → keep (set content record)) :
    (optional name inList read set).Keeps width depth keep := by
  intro value ordered within record holds result ran
  obtain ⟨content, contentRead, rfl⟩ := map_eq_ok_iff.1 ran
  exact keeps content record (makes value ordered within content contentRead) holds

theorem keeps_defaulted {names : List String} {set : β → α → α}
    (makes : read.Makes width depth property)
    (keeps : ∀ content record, property content → keep record → keep (set content record)) :
    (defaulted names read set).Keeps width depth keep := by
  intro value ordered within record holds result ran
  obtain ⟨content, contentRead, rfl⟩ := map_eq_ok_iff.1 ran
  exact keeps content record (makes value ordered within content contentRead) holds

theorem keeps_required {name : String} {set : β → α → α}
    (makes : read.Makes width depth property)
    (keeps : ∀ content record, property content → keep record → keep (set content record)) :
    (required name read set).Keeps width depth keep := by
  have same : (defaulted [name] read set).Keeps width depth keep := keeps_defaulted makes keeps
  exact same

variable {fields : List (Member α)}

private theorem setMembers_holds {members : List (String × Json)}
    (keeps : ∀ member ∈ members, ∀ field ∈ fields, field.names.contains member.1 →
      ∀ record, keep record → ∀ result, field.set member.2.toDraft record = .ok result →
        keep result) {seen : List String} (holds : keep record) {result : α × List String}
    (ran : setMembers fields .closed seen record (Json.memberDrafts members) = .ok result) :
    keep result.1 := by
  induction members generalizing seen record with
  | nil =>
    cases ran
    exact holds
  | cons member rest ih =>
    obtain ⟨key, value⟩ := member
    rw [List.forall_mem_cons] at keeps
    simp only [Json.memberDrafts, setMembers] at ran
    split at ran
    · split at ran
      · cases ran
      · exact ih keeps.2 holds ran
    next field found =>
      split at ran
      · cases ran
      · split at ran
        · cases ran
        next stored set =>
          have known := List.mem_of_find?_eq_some found
          have named := List.find?_some found
          exact ih keeps.2 (keeps.1 field known named record holds stored set) ran

variable (keep) in
/-- What the empty record has is kept by a record that is read of an object, if it is kept by every
member that stands in the object. -/
theorem holds_of_members {origin : DraftOrigin} {name : String} {empty : α}
    {members : List (String × Json)} (start : keep empty)
    (keeps : ∀ member ∈ members, ∀ field ∈ fields, field.names.contains member.1 →
      ∀ record, keep record → ∀ result, field.set member.2.toDraft record = .ok result →
        keep result) {result : α}
    (ran : DraftReader.record origin name fields empty (Json.object members).toDraft = .ok result) :
    keep result := by
  obtain ⟨⟨found, seen⟩, set, ran⟩ := bind_eq_ok_iff.1 ran
  have holds := setMembers_holds keeps start set
  dsimp only at ran
  split at ran
  · cases ran
  · cases ran
    exact holds

private theorem noMoreItems_eq_ok {origin : DraftOrigin} {total : Nat} {drafts : List Draft}
    {ending : DraftEnd} {value result : α}
    (ran : noMoreItems origin total value drafts ending = .ok result) : result = value := by
  unfold noMoreItems at ran
  split at ran
  · cases ran
    rfl
  · split at ran <;> cases ran
  · cases origin <;> cases ran

private theorem setItems_keeps {origin : DraftOrigin} {expected : String} {total position : Nat}
    (keeps : ∀ field ∈ fields, field.Keeps width depth keep) {items : List Json}
    (ordered : ∀ item ∈ items, item.Ordered) (within : ∀ item ∈ items, item.Within width depth)
    (holds : keep record) {result : α}
    (ran : setItems origin expected total position .closed fields (Json.itemDrafts items) record =
      .ok result) : keep result := by
  induction fields generalizing items record position with
  | nil =>
    rw [setItems] at ran
    rw [noMoreItems_eq_ok ran]
    exact holds
  | cons field rest ih =>
    have keepsLater := fun other member => keeps other (List.mem_cons_of_mem _ member)
    cases items with
    | nil =>
      simp only [Json.itemDrafts, setItems] at ran
      split at ran
      · exact ih keepsLater ordered within holds ran
      · cases ran
    | cons item others =>
      simp only [Json.itemDrafts, setItems] at ran
      split at ran
      · cases ran
      next stored set =>
        have here := keeps field (by simp) item (ordered item (by simp)) (within item (by simp))
          record holds stored set
        exact ih keepsLater (fun other member => ordered other (by simp [member]))
          (fun other member => within other (by simp [member])) here ran

/-- A record has what its members keep and the empty record has. -/
theorem makes_record {origin : DraftOrigin} {name : String} {empty : α} (start : keep empty)
    (keeps : ∀ field ∈ fields, field.Keeps width depth keep) :
    (DraftReader.record origin name fields empty).Makes width (depth + 1) keep := by
  intro value ordered within result ran
  cases value with
  | object members =>
    refine holds_of_members keep start (fun member listed field known _ => ?_) ran
    exact keeps field known member.2 (Json.membersOrdered_iff.1 ordered.2 member listed)
      (Json.within_object_iff.1 within member listed)
  | list items =>
    exact setItems_keeps keeps (Json.itemsOrdered_iff.1 ordered)
      (Json.within_list_iff.1 within).2 start ran
  | _ => cases ran

section Set

variable {ending : DraftEnd} {seen : List String} {drafts : List (DraftText × Draft)}
variable {field : Member α} {result : α × List String}

/-- What a record has once a member is set stays, where no other member changes it. -/
private theorem setMembers_stays
    (others : ∀ other ∈ fields, other.name ≠ field.name → ∀ draft record result,
      other.set draft record = .ok result → keep record → keep result)
    (set : field.name ∈ seen) (holds : keep record)
    (ran : setMembers fields ending seen record drafts = .ok result) : keep result.1 := by
  induction drafts generalizing seen record with
  | nil =>
    cases ending with
    | closed =>
      cases ran
      exact holds
    | cut reading skipping => cases ran
  | cons part rest ih =>
    rw [setMembers] at ran
    split at ran
    · cases ran
    · split at ran
      · split at ran
        · cases ran
        · exact ih set holds ran
      next other found =>
        split at ran
        · cases ran
        next fresh =>
          have different : other.name ≠ field.name :=
            fun same => fresh (List.contains_iff_mem.2 (same ▸ set))
          split at ran
          · cases ran
          next stored here =>
            have known := List.mem_of_find?_eq_some found
            exact ih (List.mem_cons_of_mem _ set)
              (others other known different _ _ _ here holds) ran

private theorem setMembers_sets {text : DraftText} {draft : Draft} {key : String}
    (named : text.reading = .ok key) (found : fields.find? (·.names.contains key) = some field)
    (sets : ∀ record result, field.set draft record = .ok result → keep result)
    (others : ∀ other ∈ fields, other.name ≠ field.name → ∀ draft record result,
      other.set draft record = .ok result → keep record → keep result)
    (listed : (text, draft) ∈ drafts)
    (ran : setMembers fields ending seen record drafts = .ok result) : keep result.1 := by
  induction drafts generalizing seen record with
  | nil => cases listed
  | cons part rest ih =>
    rcases List.mem_cons.1 listed with rfl | later
    · simp only [setMembers, named, found] at ran
      split at ran
      · cases ran
      · split at ran
        · cases ran
        next stored here =>
          exact setMembers_stays others List.mem_cons_self (sets _ _ here) ran
    · rw [setMembers] at ran
      split at ran
      · cases ran
      · split at ran
        · split at ran
          · cases ran
          · exact ih later ran
        · split at ran
          · cases ran
          · split at ran
            · cases ran
            · exact ih later ran

variable (keep) in
/-- A member that stands in an object has been set in the record that is read of it; what it sets
holds of the record where no other member changes it. -/
theorem holds_of_listed {origin : DraftOrigin} {name key : String} {empty : α}
    {members : List (String × Json)} {value : Json} (listed : (key, value) ∈ members)
    (found : fields.find? (·.names.contains key) = some field)
    (sets : ∀ record result, field.set value.toDraft record = .ok result → keep result)
    (others : ∀ other ∈ fields, other.name ≠ field.name → ∀ draft record result,
      other.set draft record = .ok result → keep record → keep result) {result : α}
    (ran : DraftReader.record origin name fields empty (Json.object members).toDraft = .ok result) :
    keep result := by
  obtain ⟨⟨record, seen⟩, set, ended⟩ := bind_eq_ok_iff.1 ran
  have inside : ((⟨.ok key, none⟩ : DraftText), value.toDraft) ∈ Json.memberDrafts members := by
    rw [Json.memberDrafts_eq]
    exact List.mem_map.2 ⟨(key, value), listed, rfl⟩
  have holds := setMembers_sets rfl found sets others inside set
  dsimp only at ended
  split at ended
  · cases ended
  · cases ended
    exact holds

end Set

end Records

end DraftReader

end Columnar
