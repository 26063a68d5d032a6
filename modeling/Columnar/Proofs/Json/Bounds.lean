import Columnar.Json.FreeForm
import Columnar.Proofs.Collections
import Columnar.Proofs.Json.Depth

/-! Bounds of what is read. A value that is read from a text has the members of its objects in
order, is no deeper than the reader goes, and has no list that is longer than the text. -/
namespace Columnar

namespace Json

mutual

/-- How many items the longest list in the value has. -/
def longest : Json → Nat
  | list items => max items.length (itemLongest items)
  | object members => memberLongest members
  | _ => 0

def itemLongest : List Json → Nat
  | [] => 0
  | item :: rest => max item.longest (itemLongest rest)

def memberLongest : List (String × Json) → Nat
  | [] => 0
  | (_, value) :: rest => max value.longest (memberLongest rest)

end

/-- A value within a depth, whose lists are within a length. -/
structure Within (width depth : Nat) (value : Json) : Prop where
  depth : value.depth ≤ depth
  longest : value.longest ≤ width

variable {width bound : Nat} {items : List Json} {members : List (String × Json)}

theorem depth_list_le_iff : (list items).depth ≤ bound + 1 ↔ ∀ item ∈ items, item.depth ≤ bound := by
  rw [Json.depth, Nat.succ_le_succ_iff]
  induction items with
  | nil => simp [itemDepth]
  | cons item rest ih => rw [itemDepth, Nat.max_le, List.forall_mem_cons, ih]

theorem depth_object_le_iff :
    (object members).depth ≤ bound + 1 ↔ ∀ member ∈ members, member.2.depth ≤ bound := by
  rw [Json.depth, Nat.succ_le_succ_iff]
  induction members with
  | nil => simp [memberDepth]
  | cons member rest ih => rw [memberDepth, Nat.max_le, List.forall_mem_cons, ih]

theorem longest_list_le_iff : (list items).longest ≤ width ↔
    items.length ≤ width ∧ ∀ item ∈ items, item.longest ≤ width := by
  rw [Json.longest, Nat.max_le]
  refine and_congr_right fun short => ?_
  clear short
  induction items with
  | nil => simp [itemLongest]
  | cons item rest ih => rw [itemLongest, Nat.max_le, List.forall_mem_cons, ih]

theorem longest_object_le_iff :
    (object members).longest ≤ width ↔ ∀ member ∈ members, member.2.longest ≤ width := by
  rw [Json.longest]
  induction members with
  | nil => simp [memberLongest]
  | cons member rest ih => rw [memberLongest, Nat.max_le, List.forall_mem_cons, ih]

theorem within_list_iff : (list items).Within width (bound + 1) ↔
    items.length ≤ width ∧ ∀ item ∈ items, item.Within width bound := by
  constructor
  · rintro ⟨deep, long⟩
    obtain ⟨short, inside⟩ := longest_list_le_iff.1 long
    exact ⟨short, fun item member => ⟨depth_list_le_iff.1 deep item member, inside item member⟩⟩
  · rintro ⟨short, inside⟩
    exact ⟨depth_list_le_iff.2 fun item member => (inside item member).depth,
      longest_list_le_iff.2 ⟨short, fun item member => (inside item member).longest⟩⟩

theorem within_object_iff :
    (object members).Within width (bound + 1) ↔ ∀ member ∈ members, member.2.Within width bound := by
  constructor
  · rintro ⟨deep, long⟩ member listed
    exact ⟨depth_object_le_iff.1 deep member listed, longest_object_le_iff.1 long member listed⟩
  · intro inside
    exact ⟨depth_object_le_iff.2 fun member listed => (inside member listed).depth,
      longest_object_le_iff.2 fun member listed => (inside member listed).longest⟩

end Json

namespace Draft

/-- A list is read when it has an end and all its items are read. -/
theorem itemsToJson_eq_ok_iff {ending : DraftEnd} {drafts : List Draft} {items : List Json} :
    itemsToJson ending drafts = .ok items ↔
      ending = .closed ∧ List.Forall₂ (fun draft item => draft.toJson = .ok item) drafts items := by
  induction drafts generalizing items with
  | nil =>
    cases ending with
    | closed => simp [itemsToJson, eq_comm]
    | cut reading skipping => simp [itemsToJson]
  | cons draft rest ih =>
    rw [itemsToJson, List.forall₂_cons_left_iff]
    cases read : draft.toJson with
    | error fault => simp
    | ok value =>
      simp only [map_eq_ok_iff, ih]
      constructor
      · rintro ⟨others, ⟨closed, later⟩, rfl⟩
        exact ⟨closed, value, others, rfl, later, rfl⟩
      · rintro ⟨closed, _, others, ⟨⟩, later, rfl⟩
        exact ⟨others, ⟨closed, later⟩, rfl⟩

/-- Every member of an object that is read was there before or comes from a part. -/
theorem mem_membersToJson {ending : DraftEnd} {drafts : List (DraftText × Draft)}
    {done members : List (String × Json)} (read : membersToJson ending done drafts = .ok members)
    {member : String × Json} (listed : member ∈ members) :
    member ∈ done ∨ ∃ part ∈ drafts, part.2.toJson = .ok member.2 := by
  induction drafts generalizing done with
  | nil =>
    cases ending with
    | closed =>
      cases read
      exact .inl listed
    | cut reading skipping => cases read
  | cons part rest ih =>
    obtain ⟨key, draft⟩ := part
    rw [membersToJson] at read
    cases name : key.reading with
    | error fault =>
      rw [name] at read
      cases read
    | ok name' =>
      cases here : draft.toJson with
      | error fault =>
        rw [name, here] at read
        cases read
      | ok value =>
        rw [name, here] at read
        rcases ih read with before | ⟨part, inRest, found⟩
        · rcases Keyed.mem_insert before with rfl | before
          · exact .inr ⟨(key, draft), by simp, here⟩
          · exact .inl before
        · exact .inr ⟨part, by simp [inRest], found⟩

variable {width remaining : Nat} {draft : Draft} {stack outer next : List OpenDraft}
variable {phase after : DraftPhase} {token : JsonToken}

/-- What is read of a draft that stands inside lists and objects is within what is left of the
depth. -/
def Within (width level : Nat) (draft : Draft) : Prop :=
  ∀ value, draft.toJson = .ok value → value.Within width (depthLimit - level)

/-- A part that is neither list nor object is within every depth. -/
private theorem within_flat {level : Nat}
    (flat : ∀ value, draft.toJson = .ok value → value.depth = 0 ∧ value.longest = 0) :
    draft.Within width level := by
  intro value read
  obtain ⟨depth, longest⟩ := flat value read
  exact ⟨by omega, by omega⟩

private theorem within_broken {level : Nat} (reading skipping : SyntaxFault) :
    (Draft.broken reading skipping).Within width level := nofun

private theorem within_string {level : Nat} (text : DraftText) :
    (Draft.string text).Within width level := by
  refine within_flat fun value read => ?_
  obtain ⟨s, -, rfl⟩ := map_eq_ok_iff.1 read
  exact ⟨rfl, rfl⟩

/-- Lists and objects beyond the limit are not read, so that one which is read has room inside. -/
private theorem within_nestedIn
    (inside : ∀ depth, depthLimit - outer.length = depth + 1 →
      ∀ value, draft.toJson = .ok value → value.Within width (depth + 1)) :
    (nestedIn outer draft).Within width outer.length := by
  intro value read
  unfold nestedIn at read
  split at read
  · cases read
  next shallow =>
    rw [List.length_take] at shallow
    obtain ⟨depth, room⟩ : ∃ depth, depthLimit - outer.length = depth + 1 :=
      ⟨depthLimit - outer.length - 1, by omega⟩
    rw [room]
    exact inside depth room value read

private theorem within_closeList {items : List Draft} {ending : DraftEnd}
    (short : items.length ≤ width) (all : ∀ item ∈ items, item.Within width (outer.length + 1)) :
    (nestedIn outer (.list items ending)).Within width outer.length := by
  refine within_nestedIn fun depth room value read => ?_
  rw [toJson] at read
  obtain ⟨values, itemsRead, rfl⟩ := map_eq_ok_iff.1 read
  obtain ⟨-, related⟩ := itemsToJson_eq_ok_iff.1 itemsRead
  refine Json.within_list_iff.2 ⟨?_, fun value member => ?_⟩
  · rwa [← related.length_eq]
  · obtain ⟨item, inItems, here⟩ := exists_left_of_forall₂ related member
    have within := all item inItems value here
    rwa [← Nat.sub_sub, room] at within

private theorem within_closeObject {members : List (DraftText × Draft)} {ending : DraftEnd}
    (all : ∀ part ∈ members, part.2.Within width (outer.length + 1)) :
    (nestedIn outer (.object members ending)).Within width outer.length := by
  refine within_nestedIn fun depth room value read => ?_
  rw [toJson] at read
  obtain ⟨values, membersRead, rfl⟩ := map_eq_ok_iff.1 read
  refine Json.within_object_iff.2 fun member listed => ?_
  rcases mem_membersToJson membersRead listed with before | ⟨part, inMembers, here⟩
  · cases before
  · have within := all part inMembers member.2 here
    rwa [← Nat.sub_sub, room] at within

/-- What is open holds drafts that are within the depth of their place, and every list has room for
an item for each remaining token and for one more. -/
def StackWithin (width remaining : Nat) : List OpenDraft → Prop
  | [] => True
  | .list items :: outer => items.length + remaining < width ∧
      (∀ item ∈ items, item.Within width (outer.length + 1)) ∧ StackWithin width remaining outer
  | .object members :: outer | .member members _ :: outer =>
    (∀ part ∈ members, part.2.Within width (outer.length + 1)) ∧ StackWithin width remaining outer

private theorem stackWithin_mono (within : StackWithin width (remaining + 1) stack) :
    StackWithin width remaining stack := by
  induction stack with
  | nil => trivial
  | cons top outer ih =>
    cases top with
    | list items =>
      obtain ⟨short, all, later⟩ := within
      exact ⟨by omega, all, ih later⟩
    | _ => exact ⟨within.1, ih within.2⟩

/-- Everything that ends at a fault is within bounds. -/
private theorem within_abandon (within : draft.Within width stack.length)
    (inside : StackWithin width remaining stack) :
    (abandon draft stack).Within width 0 := by
  induction stack generalizing draft with
  | nil => exact within
  | cons top outer ih =>
    cases top with
    | list items =>
      obtain ⟨short, all, later⟩ := inside
      refine ih (within_closeList ?_ fun item member => ?_) later
      · simp
        omega
      · rcases List.mem_cons.1 (List.mem_reverse.1 member) with rfl | member
        · exact within
        · exact all item member
    | object members =>
      obtain ⟨all, later⟩ := inside
      exact ih (within_closeObject fun part member => all part (List.mem_reverse.1 member)) later
    | member members key =>
      obtain ⟨all, later⟩ := inside
      refine ih (within_closeObject fun part member => ?_) later
      rcases List.mem_cons.1 (List.mem_reverse.1 member) with rfl | member
      · exact within
      · exact all part member

private theorem within_fails {scan : DraftScan} (fails : Fails stack scan)
    (inside : StackWithin width remaining stack) : scan.draft.Within width 0 := by
  cases fails with
  | value reading skipping => exact within_abandon (within_broken reading skipping) inside
  | string broken => exact within_abandon (within_string _) inside
  | key broken => exact within_abandon (within_flat (by rintro _ ⟨⟩; exact ⟨rfl, rfl⟩)) inside
  | between reading skipping =>
    cases stack with
    | nil => exact within_broken reading skipping
    | cons top outer =>
      cases top with
      | list items =>
        obtain ⟨short, all, later⟩ := inside
        refine within_abandon (within_closeList ?_ fun item member => ?_) later
        · simp
          omega
        · exact all item (List.mem_reverse.1 member)
      | object members =>
        obtain ⟨all, later⟩ := inside
        exact within_abandon
          (within_closeObject fun part member => all part (List.mem_reverse.1 member)) later
      | member members key => exact within_abandon (within_broken reading skipping) inside

private theorem stackWithin_move (move : Move token stack phase next after)
    (room : remaining < width) (inside : StackWithin width remaining stack) :
    StackWithin width remaining next := by
  cases move with
  | openList item => exact ⟨by simpa using room, List.forall_mem_nil _, inside⟩
  | openObject item => exact ⟨List.forall_mem_nil _, inside⟩
  | _ => exact inside

private theorem within_ends (ends : Ends token stack phase draft outer)
    (inside : StackWithin width remaining stack) :
    draft.Within width outer.length ∧ StackWithin width remaining outer := by
  cases ends with
  | scalar item scalar =>
    refine ⟨within_flat fun value read => ?_, inside⟩
    cases scalar with
    | number n =>
      obtain ⟨number, -, rfl⟩ := map_eq_ok_iff.1 read
      exact ⟨rfl, rfl⟩
    | string sound =>
      obtain ⟨s, -, rfl⟩ := map_eq_ok_iff.1 read
      exact ⟨rfl, rfl⟩
    | _ =>
      cases read
      exact ⟨rfl, rfl⟩
  | closeList last =>
    obtain ⟨short, all, later⟩ := inside
    refine ⟨within_closeList ?_ fun item member => all item (List.mem_reverse.1 member), later⟩
    simp
    omega
  | closeObject last =>
    obtain ⟨all, later⟩ := inside
    exact ⟨within_closeObject fun part member => all part (List.mem_reverse.1 member), later⟩

private theorem stackWithin_place (placed : place draft outer = some next)
    (within : draft.Within width outer.length)
    (inside : StackWithin width (remaining + 1) outer) : StackWithin width remaining next := by
  cases outer with
  | nil => cases placed
  | cons top outer =>
    cases top with
    | list items =>
      cases placed
      obtain ⟨short, all, later⟩ := inside
      refine ⟨?_, List.forall_mem_cons.2 ⟨within, all⟩, stackWithin_mono later⟩
      simp
      omega
    | object members =>
      cases placed
      exact stackWithin_mono inside
    | member members key =>
      cases placed
      obtain ⟨all, later⟩ := inside
      exact ⟨List.forall_mem_cons.2 ⟨within, all⟩, stackWithin_mono later⟩

/-- Reading token by token keeps all drafts within bounds. -/
private theorem within_build {tokens : List JsonToken} (room : tokens.length ≤ width)
    (inside : StackWithin width tokens.length stack) :
    (build stack phase tokens).draft.Within width 0 := by
  induction tokens generalizing stack phase with
  | nil => exact within_fails (atEnd_fails stack phase) inside
  | cons token rest ih =>
    have roomLater : rest.length < width := room
    rcases step_cases token stack phase rest with
      ⟨next, after, move⟩ | ⟨draft, outer, ends⟩ | fails
    · rw [build_move move]
      exact ih (Nat.le_of_lt roomLater) (stackWithin_move move roomLater (stackWithin_mono inside))
    · rw [build_ends ends, finish]
      obtain ⟨within, later⟩ := within_ends ends inside
      cases placed : place draft outer with
      | some next => exact ih (Nat.le_of_lt roomLater) (stackWithin_place placed within later)
      | none =>
        have whole : outer = [] := by
          cases outer with
          | nil => rfl
          | cons top outer => cases top <;> cases placed
        subst whole
        dsimp only
        split <;> exact within
    · exact within_fails fails inside

end Draft

theorem JsonToken.length_scan (octets : Octets) : (scan octets).length ≤ octets.length := by
  have bounded : ∀ (bound : Nat) (octets : Octets), (scanUpTo bound octets).length ≤ bound := by
    intro bound
    induction bound with
    | zero => exact fun octets => Nat.le_refl 0
    | succ bound ih =>
      intro octets
      cases octets with
      | nil => exact Nat.zero_le _
      | cons first rest =>
        rw [scanUpTo]
        split
        · exact Nat.le_succ_of_le (ih rest)
        · dsimp only
          split
          · exact Nat.succ_le_succ (ih _)
          · exact Nat.le_add_left 1 bound
  exact bounded octets.length octets

/-- A value that is read from a text is in order and within bounds. -/
theorem Json.bounds_of_read {octets : Octets} {value : Json} (read : Json.read octets = .ok value) :
    value.Ordered ∧ value.Within octets.length Draft.depthLimit := by
  obtain ⟨found, whole, ended⟩ := bind_eq_ok_iff.1 read
  split at ended
  · cases ended
  · cases ended
    have nothing : Draft.StackWithin octets.length (JsonToken.scan octets).length [] := trivial
    exact ⟨Draft.ordered_toJson _ whole,
      Draft.within_build (JsonToken.length_scan octets) nothing value whole⟩

end Columnar
