import Columnar.Proofs.Json.Readers

/-! Reading records that were written. A record is written as an object with the members that have
something to say; reading it sets them, in whatever order they come, in a record without any. The
members of a record are independent, so that the order does not show. -/
namespace Columnar

theorem Json.optionalMember_unless (name : String) (condition : Bool) (value : Json) :
    Json.optionalMember name (if condition then none else some value) =
      if condition then [] else [(name, value)] := by
  cases condition <;> rfl

namespace DraftReader

variable {α β : Type}

/-- A member of a record that is written: its name, its value if it is not left out, and what
reading that value does to a record. -/
structure Entry (α : Type) where
  name : String
  value : Option Json
  copy : α → α

namespace Entry

def members (entry : Entry α) : List (String × Json) := Json.optionalMember entry.name entry.value

/-- Two members that do not touch the same part of a record. -/
def Independent (a b : Entry α) : Prop := ∀ record, a.copy (b.copy record) = b.copy (a.copy record)

/-- A part of a written object that tells the entry. -/
def Told (entry : Entry α) (told : DraftText × Draft) : Prop :=
  told.1 = ⟨.ok entry.name, none⟩ ∧ ∃ value, entry.value = some value ∧ value.ToldBy told.2

end Entry

/-- A known member reads what is written of it, and leaves an empty record as it is when nothing
is. -/
structure Member.Carries (empty : α) (field : Member α) (entry : Entry α) : Prop where
  named : ∃ others, field.names = entry.name :: others
  distinct : ∀ value, entry.value = some value → value.Distinct
  set : ∀ value, entry.value = some value → ∀ draft, value.ToldBy draft →
    ∀ record, field.set draft record = .ok (entry.copy record)
  absent : entry.value = none → field.optionalInObject = true ∧ entry.copy empty = empty

/-- A member that may be null, which says that it is not set. -/
theorem carries_nullable {empty : α} (name : String) {inList : Bool} {read : DraftReader β}
    {set : Option β → α → α} (value : Option Json) {content : Option β}
    (given : ∀ written ∈ value, (nullable read).Gives written content)
    (untouched : value = none → set content empty = empty) :
    (optional name inList read set).Carries empty ⟨name, value, set content⟩ where
  named := ⟨[], rfl⟩
  distinct written present := (given written present).distinct
  set written present draft told record :=
    congrArg (Except.map fun content => set content record)
      ((given written present).reads draft told)
  absent none := ⟨rfl, untouched none⟩

theorem carries_optional {empty : α} (name : String) {inList : Bool} {read : DraftReader β}
    {set : Option β → α → α} (write : β → Json) (written : Option β)
    (given : ∀ content ∈ written, write content ≠ .null ∧ read.Gives (write content) content)
    (untouched : set none empty = empty) :
    (optional name inList read set).Carries empty ⟨name, written.map write, set written⟩ := by
  refine carries_nullable name _ (fun value present => ?_) fun absent => ?_
  · obtain ⟨content, rfl, rfl⟩ := Option.map_eq_some_iff.1 present
    obtain ⟨notNull, gives⟩ := given content rfl
    exact nullable_gives gives notNull
  · rw [Option.map_eq_none_iff.1 absent]
    exact untouched

theorem carries_text {empty : α} (name : String) {inList : Bool} {set : Option String → α → α}
    (written : Option String) (untouched : set none empty = empty) :
    (optional name inList string set).Carries empty ⟨name, written.map Json.string, set written⟩ :=
  carries_optional name Json.string written (fun s _ => ⟨nofun, string_gives s⟩) untouched

theorem carries_flag {empty : α} (name : String) {inList : Bool} {set : Option Bool → α → α}
    (written : Option Bool) (untouched : set none empty = empty) :
    (optional name inList flag set).Carries empty ⟨name, written.map Json.bool, set written⟩ :=
  carries_optional name Json.bool written (fun b _ => ⟨nofun, flag_gives b⟩) untouched

/-- A bound that is not finite is written as null and taken for one that is not set. -/
theorem carries_real {empty : α} (name : String) {inList : Bool} {set : Option Binary64 → α → α}
    (written : Option Binary64) (untouched : set none empty = empty) :
    (optional name inList real set).Carries empty
      ⟨name, written.map Json.ofReal, set (written.filter Binary64.isFinite)⟩ := by
  refine carries_nullable name _ (fun value present => ?_) fun absent => ?_
  · obtain ⟨x, rfl, rfl⟩ := Option.map_eq_some_iff.1 present
    exact nullable_real_gives x
  · rw [Option.map_eq_none_iff.1 absent]
    exact untouched

/-- A setting that is null is taken for one that is not set. -/
theorem carries_free {empty : α} (name : String) {inList : Bool}
    {set : Option FreeForm → α → α} (written : Option FreeForm)
    (untouched : set none empty = empty) :
    (optional name inList FreeForm.read set).Carries empty
      ⟨name, written.map FreeForm.value, set (written.filter fun free => !free.value.isNull)⟩ := by
  refine carries_nullable name _ (fun value present => ?_) fun absent => ?_
  · obtain ⟨free, rfl, rfl⟩ := Option.map_eq_some_iff.1 present
    exact free.nullable_read_gives
  · rw [Option.map_eq_none_iff.1 absent]
    exact untouched

theorem carries_defaulted {empty : α} (name : String) (others : List String)
    {read : DraftReader β} {set : β → α → α} (value : Option Json) {content : β}
    (given : ∀ written ∈ value, read.Gives written content)
    (untouched : value = none → set content empty = empty) :
    (defaulted (name :: others) read set).Carries empty ⟨name, value, set content⟩ where
  named := ⟨others, rfl⟩
  distinct written present := (given written present).distinct
  set written present draft told record :=
    congrArg (Except.map fun content => set content record)
      ((given written present).reads draft told)
  absent none := ⟨rfl, untouched none⟩

/-- A member that is written although it may be left out. -/
theorem carries_written {empty : α} (name : String) (others : List String)
    {read : DraftReader β} {set : β → α → α} {value : Json} {content : β}
    (given : read.Gives value content) :
    (defaulted (name :: others) read set).Carries empty ⟨name, some value, set content⟩ :=
  carries_defaulted name others (some value) (by rintro _ ⟨⟩; exact given) nofun

/-- A mark that is left out where it is not set. -/
theorem carries_mark {empty : α} (name : String) {set : Bool → α → α} (marked : Bool)
    (untouched : set false empty = empty) :
    (defaulted [name] flag set).Carries empty
      ⟨name, if marked then some (.bool true) else none, set marked⟩ := by
  refine carries_defaulted name [] _ (fun value present => ?_) fun absent => ?_
  · cases marked with
    | false => cases present
    | true =>
      cases present
      exact flag_gives true
  · cases marked with
    | false => exact untouched
    | true => cases absent

/-- A text that is left out when it is empty. -/
theorem carries_nonempty {empty : α} (name : String) {set : String → α → α} (text : String)
    (untouched : set "" empty = empty) :
    (defaulted [name] string set).Carries empty
      ⟨name, if text.isEmpty then none else some (.string text), set text⟩ := by
  refine carries_defaulted name [] _ (fun value present => ?_) fun absent => ?_
  · split at present
    next => cases present
    next =>
      cases present
      exact string_gives text
  · split at absent
    next none =>
      rw [String.isEmpty_iff.1 none]
      exact untouched
    next => cases absent

/-- A list that is left out when there is nothing in it. -/
theorem carries_items {empty : α} (name : String) {read : DraftReader β} {set : List β → α → α}
    (write : β → Json) (items : List β) (given : ∀ item ∈ items, read.Gives (write item) item)
    (untouched : set [] empty = empty) :
    (defaulted [name] (listOf read) set).Carries empty
      ⟨name, if items.isEmpty then none else some (.list (items.map write)), set items⟩ := by
  refine carries_defaulted name [] _ (fun value present => ?_) fun absent => ?_
  · cases items with
    | nil => cases present
    | cons first rest =>
      cases present
      exact listOf_gives_self given
  · cases items with
    | nil => exact untouched
    | cons first rest => cases absent

theorem carries_required {empty : α} (name : String) {read : DraftReader β} {set : β → α → α}
    {value : Json} {content : β} (given : read.Gives value content) :
    (required name read set).Carries empty ⟨name, some value, set content⟩ where
  named := ⟨[], rfl⟩
  distinct written present := by
    cases present
    exact given.distinct
  set written present draft told record := by
    cases present
    exact congrArg (Except.map fun content => set content record) (given.reads draft told)
  absent := nofun

/-- The member of a name is found when no name belongs to two members. -/
private theorem find?_names {fields : List (Member α)} (distinct : (fields.flatMap (·.names)).Nodup)
    {field : Member α} (listed : field ∈ fields) {name : String} (named : name ∈ field.names) :
    fields.find? (·.names.contains name) = some field := by
  induction fields with
  | nil => cases listed
  | cons first rest ih =>
    rw [List.flatMap_cons, List.nodup_append] at distinct
    obtain ⟨-, later, apart⟩ := distinct
    rcases List.mem_cons.1 listed with rfl | listed
    · rw [List.find?_cons_of_pos (by simpa using named)]
    · have other : name ∉ first.names := by
        intro here
        exact apart name here name (List.mem_flatMap.2 ⟨field, listed, named⟩) rfl
      rw [List.find?_cons_of_neg (by simpa using other), ih later listed]

/-- What is written of the members that have something to say. -/
private theorem told_entries {entries : List (Entry α)} {told : List (DraftText × Draft)}
    (all : List.Forall₂ Json.MemberTold (entries.flatMap Entry.members) told) :
    List.Forall₂ (fun part entry => entry.Told part) told
      (entries.filter fun entry => entry.value.isSome) := by
  induction entries generalizing told with
  | nil =>
    cases all
    exact .nil
  | cons entry rest ih =>
    rw [List.flatMap_cons, Entry.members] at all
    cases written : entry.value with
    | none =>
      rw [written] at all
      rw [List.filter_cons_of_neg (by simp [written])]
      exact ih all
    | some value =>
      rw [written] at all
      rw [List.filter_cons_of_pos (by simp [written])]
      rcases all with _ | ⟨here, later⟩
      exact .cons ⟨here.1, value, written, here.2⟩ (ih later)

/-- Members that are told are set one after the other. -/
private theorem setMembers_eq_ok {fields : List (Member α)} {entries : List (Entry α)}
    {told : List (DraftText × Draft)}
    (known : ∀ entry ∈ entries, ∃ field,
      fields.find? (·.names.contains entry.name) = some field ∧ field.name = entry.name ∧
        ∀ value, entry.value = some value → ∀ draft, value.ToldBy draft →
          ∀ record, field.set draft record = .ok (entry.copy record))
    (all : List.Forall₂ (fun part entry => Entry.Told entry part) told entries)
    {seen : List String} (fresh : (entries.map Entry.name ++ seen).Nodup) (record : α) :
    setMembers fields .closed seen record told =
      .ok (entries.foldl (fun record entry => entry.copy record) record,
        (entries.map Entry.name).reverse ++ seen) := by
  induction all generalizing seen record with
  | nil => rfl
  | @cons part entry parts rest here _ ih =>
    obtain ⟨key, draft⟩ := part
    obtain ⟨name, value, written, tells⟩ := here
    cases name
    obtain ⟨field, found, named, set⟩ := known entry (by simp)
    have unseen : seen.contains entry.name = false := by
      rw [List.map_cons, List.cons_append, List.nodup_cons, List.mem_append, not_or] at fresh
      simpa using fresh.1.2
    have freshLater : (rest.map Entry.name ++ entry.name :: seen).Nodup :=
      List.perm_middle.nodup_iff.2 fresh
    have later := ih (fun other member => known other (by simp [member])) freshLater
      (entry.copy record)
    simp only [setMembers, found, named, unseen, set value written draft tells record]
    rw [if_neg Bool.false_ne_true, later]
    simp

private theorem names_distinct {empty : α} {fields : List (Member α)} {entries : List (Entry α)}
    (carried : List.Forall₂ (Member.Carries empty) fields entries)
    (names : (fields.flatMap (·.names)).Nodup) : (entries.map Entry.name).Nodup := by
  refine List.Nodup.sublist ?_ names
  clear names
  induction carried with
  | nil => exact .slnil
  | cons here _ ih =>
    obtain ⟨others, named⟩ := here.named
    rw [List.map_cons, List.flatMap_cons, named]
    exact .cons_cons _ (ih.trans (List.sublist_append_right ..))

/-- No name repeats in a written record, nor in the values of its members. -/
theorem distinct_members {entries : List (Entry α)} (names : (entries.map Entry.name).Nodup)
    (values : ∀ entry ∈ entries, ∀ value ∈ entry.value, value.Distinct) :
    (Json.object (entries.flatMap Entry.members)).Distinct := by
  constructor
  · refine List.Nodup.sublist ?_ names
    clear names values
    induction entries with
    | nil => exact .slnil
    | cons entry rest ih =>
      rw [List.flatMap_cons, List.map_append, List.map_cons, Entry.members]
      cases entry.value with
      | none => exact ih.cons _
      | some value => exact ih.cons_cons _
  · apply Json.membersDistinct_iff.2
    intro member inMembers
    obtain ⟨entry, listed, here⟩ := List.mem_flatMap.1 inMembers
    rw [Entry.members] at here
    cases written : entry.value with
    | none =>
      rw [written] at here
      cases here
    | some value =>
      rw [written] at here
      rcases List.mem_singleton.1 here with rfl
      exact values entry listed value written

/-- Members that are left out and members that come in another order make no difference. -/
private theorem foldl_present {empty : α} {entries present : List (Entry α)}
    (order : present.Perm (entries.filter fun entry => entry.value.isSome))
    (independent : entries.Pairwise Entry.Independent)
    (untouched : ∀ entry ∈ entries, entry.value = none → entry.copy empty = empty) :
    present.foldl (fun record entry => entry.copy record) empty =
      entries.foldl (fun record entry => entry.copy record) empty := by
  have absent : (entries.filter fun entry => !entry.value.isSome).foldl
      (fun record entry => entry.copy record) empty = empty := by
    refine List.foldlRecOn (motive := (· = empty)) _ _ rfl fun record same entry member => ?_
    obtain ⟨listed, none⟩ := List.mem_filter.1 member
    rw [same, untouched entry listed (by simpa using none)]
  have all : (entries.filter (fun entry => !entry.value.isSome) ++ present).Perm entries :=
    ((order.append_left _).trans List.perm_append_comm).trans (List.filter_append_perm _ _)
  have commute : ∀ first ∈ entries, ∀ second ∈ entries, first.Independent second :=
    fun _ here _ there => independent.forall_of_forall_of_flip (fun _ _ _ => rfl)
      (independent.imp fun apart record => (apart record).symm) here there
  have moved := all.foldl_eq' (f := fun record entry => entry.copy record)
    (fun first here second there record =>
      commute second (all.mem_iff.1 there) first (all.mem_iff.1 here) record) empty
  rw [← moved, List.foldl_append, absent]

/-- A record that was written is read back from what tells it. -/
theorem record_gives {origin : DraftOrigin} {name : String} {fields : List (Member α)}
    {empty result : α} {value : Json} {entries : List (Entry α)}
    (carried : List.Forall₂ (Member.Carries empty) fields entries)
    (names : (fields.flatMap (·.names)).Nodup) (independent : entries.Pairwise Entry.Independent)
    (whole : entries.foldl (fun record entry => entry.copy record) empty = result)
    (written : value = .object (entries.flatMap Entry.members)) :
    (record origin name fields empty).Gives value result := by
  subst written
  have values : ∀ entry ∈ entries, ∀ value ∈ entry.value, value.Distinct := by
    intro entry listed value present
    obtain ⟨field, -, carries⟩ := exists_left_of_forall₂ carried listed
    exact carries.distinct value present
  refine ⟨distinct_members (names_distinct carried names) values, ?_⟩
  rintro draft ⟨drafts, told, rfl, moved, all⟩
  rw [Json.membersTold_iff] at all
  -- The entries that are written, in the order in which the draft has them.
  obtain ⟨present, told, order⟩ := List.perm_comp_forall₂ moved (told_entries all)
  have listed : ∀ entry ∈ present, entry ∈ entries := by
    intro entry member
    exact List.mem_of_mem_filter (order.mem_iff.1 member)
  have known : ∀ entry ∈ present, ∃ field,
      fields.find? (·.names.contains entry.name) = some field ∧ field.name = entry.name ∧
        ∀ value, entry.value = some value → ∀ draft, value.ToldBy draft →
          ∀ record, field.set draft record = .ok (entry.copy record) := by
    intro entry member
    obtain ⟨field, inFields, carries⟩ := exists_left_of_forall₂ carried (listed entry member)
    obtain ⟨others, named⟩ := carries.named
    refine ⟨field, find?_names names inFields (by simp [named]), ?_, carries.set⟩
    rw [Member.name, named, List.headD_cons]
  have fresh : (present.map Entry.name ++ []).Nodup := by
    rw [List.append_nil]
    exact (order.map _).nodup_iff.2
      ((names_distinct carried names).sublist (List.filter_sublist.map _))
  have ran := setMembers_eq_ok known told fresh empty
  have untouched : ∀ entry ∈ entries, entry.value = none → entry.copy empty = empty := by
    intro entry member none
    obtain ⟨field, -, carries⟩ := exists_left_of_forall₂ carried member
    exact (carries.absent none).2
  have complete : (fields.find? fun field => !field.optionalInObject &&
      !((present.map Entry.name).reverse ++ []).contains field.name) = none := by
    rw [List.find?_eq_none]
    intro field inFields
    obtain ⟨entry, member, carries⟩ := exists_right_of_forall₂ carried inFields
    cases written : entry.value with
    | none => simp [(carries.absent written).1]
    | some value =>
      obtain ⟨others, named⟩ := carries.named
      have set : entry ∈ present := order.mem_iff.2 (List.mem_filter.2 ⟨member, by simp [written]⟩)
      have seen : field.name ∈ present.map Entry.name := by
        rw [Member.name, named, List.headD_cons]
        exact List.mem_map_of_mem set
      simp [List.mem_map.1 seen]
  rw [record, ran]
  simp only [bind, Except.bind, complete]
  rw [foldl_present order independent untouched, whole]

/-- A known member with a value that its reader refuses, wherever it stands. -/
private theorem setMembers_refuses {fields : List (Member α)} {field : Member α} {name : String}
    {draft : Draft} (known : fields.find? (·.names.contains name) = some field)
    (refused : ∀ record result, field.set draft record ≠ .ok result)
    {told : List (DraftText × Draft)} (member : (⟨.ok name, none⟩, draft) ∈ told)
    (seen : List String) (record : α) (result : α × List String) :
    setMembers fields .closed seen record told ≠ .ok result := by
  induction told generalizing seen record with
  | nil => cases member
  | cons first rest ih =>
    rw [setMembers]
    rcases List.mem_cons.1 member with rfl | later
    · simp only [known]
      split
      · exact nofun
      · split
        · exact nofun
        next stored set => exact absurd set (refused record stored)
    · split
      · exact nofun
      · split
        · split
          · exact nofun
          · exact ih later _ _
        · split
          · exact nofun
          · split
            · exact nofun
            · exact ih later _ _

/-- A record is refused when one of its known members is. -/
theorem record_refuses {origin : DraftOrigin} {name key : String} {fields : List (Member α)}
    {field : Member α} {empty : α} {value : Json} {members : List (String × Json)}
    (member : (key, value) ∈ members) (known : fields.find? (·.names.contains key) = some field)
    (refused : ∀ draft, value.ToldBy draft →
      ∀ record result, field.set draft record ≠ .ok result) :
    (record origin name fields empty).Refuses (.object members) := by
  rintro draft ⟨drafts, told, rfl, moved, all⟩ result ran
  obtain ⟨⟨key', inner⟩, inTold, rfl, here⟩ :=
    exists_right_of_forall₂ (Json.membersTold_iff.1 all) member
  obtain ⟨found, set, -⟩ := bind_eq_ok_iff.1 ran
  exact setMembers_refuses known (refused inner here) (moved.mem_iff.2 inTold) [] empty found set

end DraftReader

end Columnar
