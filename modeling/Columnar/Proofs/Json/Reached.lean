import Columnar.Proofs.Json.Placed

/-! Texts that have been read are not too deep. Reading looks at every part of a text, so that no part
of one that has been read is nested beyond the limit. A list of sound texts is read just when it is
not too deep as a whole and all of the texts are read by themselves. -/
namespace Columnar

namespace Draft

variable {token : JsonToken} {tokens : List JsonToken} {phase after : DraftPhase}
variable {stack outer next : List OpenDraft} {draft : Draft} {level : Nat}

/-- The draft has a value. -/
def Readable (draft : Draft) : Prop := ∃ value, draft.toJson = .ok value

theorem readable_of_nestedIn (readable : (nestedIn outer draft).Readable) :
    outer.length < depthLimit ∧ draft.Readable := by
  obtain ⟨value, read⟩ := readable
  rw [nestedIn_eq_nestedAt, toJson_nestedAt] at read
  exact ⟨read.1, value, read.2⟩

theorem readable_items {items : List Draft} {ending : DraftEnd}
    (readable : (Draft.list items ending).Readable) : ∀ item ∈ items, item.Readable := by
  obtain ⟨value, read⟩ := readable
  obtain ⟨values, all, -⟩ := map_eq_ok_iff.1 read
  intro item member
  obtain ⟨value, -, here⟩ := exists_right_of_forall₂ (itemsToJson_eq_ok_iff.1 all).2 member
  exact ⟨value, here⟩

private theorem readable_of_membersToJson {ending : DraftEnd} {done all : List (String × Json)}
    {members : List (DraftText × Draft)} (read : membersToJson ending done members = .ok all) :
    ∀ part ∈ members, part.2.Readable := by
  induction members generalizing done with
  | nil => exact List.forall_mem_nil _
  | cons part rest ih =>
    obtain ⟨key, draft⟩ := part
    rw [membersToJson] at read
    split at read
    · cases read
    · split at read
      · cases read
      next value here => exact List.forall_mem_cons.2 ⟨⟨value, here⟩, ih read⟩

/-- Values of members count as well when a later member with the same key replaces them. -/
theorem readable_members {members : List (DraftText × Draft)} {ending : DraftEnd}
    (readable : (Draft.object members ending).Readable) : ∀ part ∈ members, part.2.Readable := by
  obtain ⟨value, read⟩ := readable
  obtain ⟨all, inside, -⟩ := map_eq_ok_iff.1 read
  exact readable_of_membersToJson inside

/-- All that has been finished inside what is open can be read. -/
def PartsReadable : List OpenDraft → Prop
  | [] => True
  | .list items :: outer => (∀ item ∈ items, item.Readable) ∧ PartsReadable outer
  | .object members :: outer | .member members _ :: outer =>
    (∀ part ∈ members, part.2.Readable) ∧ PartsReadable outer

/-- No object is open in which a key or a comma must come next. -/
def Takes (stack : List OpenDraft) : Prop := ∀ members, .object members ∉ stack

/-- All that is open stands where a value may, and a value that comes next does as well. -/
structure Seated (stack : List OpenDraft) (phase : DraftPhase) : Prop where
  outside : Takes stack.tail
  inside : phase = .item ∨ phase = .firstItem ∨ phase = .colon → Takes stack

private theorem takes_cons {top : OpenDraft} (takes : Takes stack)
    (other : ∀ members, .object members ≠ top) : Takes (top :: stack) := by
  intro members inside
  rcases List.mem_cons.1 inside with same | inside
  · exact other members same
  · exact takes members inside

private theorem seated_move (seated : Seated stack phase) (move : Move token stack phase next after) :
    Seated next after := by
  cases move with
  | openList item =>
    have takes := seated.inside (item.imp id .inl)
    exact ⟨takes, fun _ => takes_cons takes nofun⟩
  | openObject item => exact ⟨seated.inside (item.imp id .inl), nofun⟩
  | nextItem => exact ⟨seated.outside, fun _ => takes_cons seated.outside nofun⟩
  | nextKey => exact ⟨seated.outside, nofun⟩
  | key => exact ⟨seated.outside, fun _ => takes_cons seated.outside nofun⟩
  | colon => exact ⟨seated.outside, fun _ => seated.inside (.inr (.inr rfl))⟩

private theorem takes_of_ends (seated : Seated stack phase)
    (ends : Ends token stack phase draft outer) : Takes outer := by
  cases ends with
  | scalar item => exact seated.inside (item.imp id .inl)
  | closeList => exact seated.outside
  | closeObject => exact seated.outside

/-- A value that is finished is kept in what is open, which is as much as before. -/
private theorem place_keeps (takes : Takes outer) (placed : place draft outer = some next) :
    Seated next .separator ∧ next.length = outer.length ∧
      (PartsReadable next → draft.Readable ∧ PartsReadable outer) := by
  cases outer with
  | nil => cases placed
  | cons top outer =>
    have outside : Takes outer := fun members inside => takes members (List.mem_cons_of_mem _ inside)
    cases top with
    | list items =>
      cases placed
      refine ⟨⟨outside, nofun⟩, rfl, fun ⟨all, later⟩ => ?_⟩
      rw [List.forall_mem_cons] at all
      exact ⟨all.1, all.2, later⟩
    | object members => exact absurd (List.mem_cons_self ..) (takes members)
    | member members key =>
      cases placed
      refine ⟨⟨outside, nofun⟩, rfl, fun ⟨all, later⟩ => ?_⟩
      rw [List.forall_mem_cons] at all
      exact ⟨all.1, all.2, later⟩

/-- What ends can be read only if its parts can and if it is not nested too deep. -/
private theorem parts_of_ends (ends : Ends token stack phase draft outer) (readable : draft.Readable)
    (parts : PartsReadable outer) (room : outer.length ≤ depthLimit) :
    PartsReadable stack ∧ stack.length ≤ depthLimit ∧
      levelAfter stack.length token = outer.length := by
  cases ends with
  | scalar item scalar => exact ⟨parts, room, by cases scalar <;> rfl⟩
  | closeList last =>
    obtain ⟨shallow, inside⟩ := readable_of_nestedIn readable
    exact ⟨⟨fun item member => readable_items inside item (List.mem_reverse.2 member), parts⟩,
      shallow, rfl⟩
  | closeObject last =>
    obtain ⟨shallow, inside⟩ := readable_of_nestedIn readable
    exact ⟨⟨fun part member => readable_members inside part (List.mem_reverse.2 member), parts⟩,
      shallow, rfl⟩

private theorem le_of_staysWithin (within : staysWithin level tokens = true) :
    level ≤ depthLimit := by
  cases tokens with
  | nil => exact of_decide_eq_true within
  | cons token rest => exact (staysWithin_cons.1 within).1

private theorem level_of_move (move : Move token stack phase next after) :
    levelAfter stack.length token = next.length ∧ stack.length ≤ next.length := by
  cases move with
  | openList => exact ⟨rfl, Nat.le_succ _⟩
  | openObject => exact ⟨rfl, Nat.le_succ _⟩
  | _ => exact ⟨rfl, Nat.le_refl _⟩

private theorem parts_of_move (move : Move token stack phase next after)
    (parts : PartsReadable next) : PartsReadable stack := by
  cases move with
  | openList => exact parts.2
  | openObject => exact parts.2
  | _ => exact parts

/-- A run over a value that can be read stays within the limit. The induction goes back from the end of
the value, where everything that stands in it is known to be readable. -/
theorem staysWithin_of_runs (runs : Runs tokens stack phase draft) (seated : Seated stack phase)
    (readable : draft.Readable) :
    PartsReadable stack ∧ staysWithin stack.length tokens = true := by
  induction runs with
  | move move later ih =>
    obtain ⟨parts, within⟩ := ih (seated_move seated move) readable
    obtain ⟨level, longer⟩ := level_of_move move
    refine ⟨parts_of_move move parts, staysWithin_cons.2 ⟨?_, level ▸ within⟩⟩
    exact Nat.le_trans longer (le_of_staysWithin within)
  | close ends placed later ih =>
    obtain ⟨seated, length, kept⟩ := place_keeps (takes_of_ends seated ends) placed
    obtain ⟨parts, within⟩ := ih seated readable
    rw [length] at within
    obtain ⟨finished, parts⟩ := kept parts
    obtain ⟨parts, room, level⟩ := parts_of_ends ends finished parts (le_of_staysWithin within)
    exact ⟨parts, staysWithin_cons.2 ⟨room, level ▸ within⟩⟩
  | last ends =>
    obtain ⟨parts, room, level⟩ := parts_of_ends ends readable trivial (Nat.zero_le _)
    refine ⟨parts, staysWithin_cons.2 ⟨room, ?_⟩⟩
    rw [level]
    rfl

/-- What is read of a sound text is not nested too deep. -/
theorem shallow_of_readable {octets : Octets} (sound : Json.syntaxFault? octets = none)
    (readable : (scan octets).draft.Readable) : Shallow octets := by
  obtain ⟨draft, runs, built⟩ := runs_of_sound sound
  have seated : Seated [] .item := ⟨by simp [Takes], fun _ => by simp [Takes]⟩
  rw [scan, built] at readable
  exact (staysWithin_of_runs runs seated readable).2

end Draft

namespace Json

variable {octets : Octets} {value : Json} {texts : List Octets}

theorem read_iff_of_sound (sound : syntaxFault? octets = none) :
    Json.read octets = .ok value ↔ (Draft.scan octets).draft.toJson = .ok value := by
  obtain ⟨draft, -, built⟩ := Draft.runs_of_sound sound
  rw [Json.read, Draft.scan, built]
  cases draft.toJson <;> exact Iff.rfl

/-- In a list that is not too deep every sound text stands for what it stands for by itself. -/
theorem scan_list_of_shallow (sound : ∀ text ∈ texts, syntaxFault? text = none)
    (shallow : Draft.Shallow (listOctets texts)) :
    (Draft.scan (listOctets texts)).draft =
      .list (texts.map fun text => (Draft.scan text).draft) .closed := by
  let parts := texts.map fun text => (text, (Draft.scan text).draft)
  have spelled : ∀ part ∈ parts, Draft.Spells part.1 part.2 := by
    intro part member
    obtain ⟨text, listed, rfl⟩ := List.mem_map.1 member
    exact Draft.spells_of_sound (sound text listed)
  have whole := Draft.spells_list parts spelled
  rw [List.map_map, List.map_map] at whole
  have same : texts.map (Prod.fst ∘ fun text => (text, (Draft.scan text).draft)) = texts :=
    List.map_id' texts
  rw [same] at whole
  obtain ⟨found, scanned, equal⟩ := Draft.scan_of_spells whole
  rw [scanned]
  exact equal shallow

/-- A list of sound texts is read just when it is not too deep and all texts are read by
themselves. -/
theorem read_list_iff_apart (sound : ∀ text ∈ texts, syntaxFault? text = none) :
    Json.read (listOctets texts) = .ok value ↔ Draft.Shallow (listOctets texts) ∧
      ∃ items, List.Forall₂ (fun text item => Json.read text = .ok item) texts items ∧
        value = .list items := by
  have whole := syntaxFault?_list sound
  have each : ∀ items, List.Forall₂ (fun text item => Json.read text = .ok item) texts items ↔
      List.Forall₂ (fun text item => (Draft.scan text).draft.toJson = .ok item) texts items := by
    intro items
    constructor <;> intro all <;> refine forall₂_imp_of_mem all fun text listed item read => ?_
    · exact (read_iff_of_sound (sound text listed)).1 read
    · exact (read_iff_of_sound (sound text listed)).2 read
  rw [read_iff_of_sound whole]
  constructor
  · intro read
    have shallow := Draft.shallow_of_readable whole ⟨value, read⟩
    rw [scan_list_of_shallow sound shallow] at read
    obtain ⟨items, all, same⟩ := map_eq_ok_iff.1 read
    have related := (Draft.itemsToJson_eq_ok_iff.1 all).2
    rw [List.forall₂_map_left_iff] at related
    exact ⟨shallow, items, (each items).2 related, same.symm⟩
  · rintro ⟨shallow, items, all, rfl⟩
    rw [scan_list_of_shallow sound shallow]
    refine map_eq_ok_iff.2 ⟨items, Draft.itemsToJson_eq_ok_iff.2 ⟨rfl, ?_⟩, rfl⟩
    exact List.forall₂_map_left_iff.2 ((each items).1 all)

end Json

end Columnar
