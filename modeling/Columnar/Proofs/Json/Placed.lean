import Columnar.Json.Raw
import Columnar.Proofs.Json.Bounds

/-! Texts in their places. What is read of a sound text depends on what stands around it only through
how many lists and objects are open there, and where fewer are open no less is read. A list or an
object is read in a place just when its parts are read one level deeper. -/
namespace Columnar

namespace Draft

variable {token : JsonToken} {tokens : List JsonToken} {phase after : DraftPhase}
variable {inner outer next first second : List OpenDraft} {draft other found found' : Draft}
variable {level near far : Nat}

section Covering

/-- What can be read of the draft is read of the other one as well. -/
def CoveredBy (draft other : Draft) : Prop :=
  ∀ value, draft.toJson = .ok value → other.toJson = .ok value

/-- Members with the same key, the value of one covered by the value of the other. -/
inductive MemberCoveredBy : DraftText × Draft → DraftText × Draft → Prop
  | mk (key : DraftText) {draft other : Draft} (values : draft.CoveredBy other) :
      MemberCoveredBy (key, draft) (key, other)

/-- Stacks on which the same kinds of things are open, the parts of one covered by the parts of the
other. -/
inductive StackCoveredBy : List OpenDraft → List OpenDraft → Prop
  | nil : StackCoveredBy [] []
  | list {items others : List Draft} {outer outer' : List OpenDraft}
      (parts : List.Forall₂ CoveredBy items others) (rest : StackCoveredBy outer outer') :
      StackCoveredBy (.list items :: outer) (.list others :: outer')
  | object {members others : List (DraftText × Draft)} {outer outer' : List OpenDraft}
      (parts : List.Forall₂ MemberCoveredBy members others) (rest : StackCoveredBy outer outer') :
      StackCoveredBy (.object members :: outer) (.object others :: outer')
  | member {members others : List (DraftText × Draft)} {key : DraftText}
      {outer outer' : List OpenDraft} (parts : List.Forall₂ MemberCoveredBy members others)
      (rest : StackCoveredBy outer outer') :
      StackCoveredBy (.member members key :: outer) (.member others key :: outer')

theorem coveredBy_refl (draft : Draft) : draft.CoveredBy draft := fun _ => id

theorem length_of_stackCovered (covered : StackCoveredBy first second) :
    first.length = second.length := by
  induction covered with
  | nil => rfl
  | _ => simpa

/-- A list or an object around which so many others are open. -/
def nestedAt (level : Nat) (draft : Draft) : Draft :=
  if depthLimit ≤ level then .deep draft else draft

theorem nestedIn_eq_nestedAt (outer : List OpenDraft) (draft : Draft) :
    nestedIn outer draft = nestedAt outer.length draft := by
  rw [nestedIn, nestedAt, List.length_take]
  exact if_congr (by omega) rfl rfl

theorem toJson_nestedAt {value : Json} :
    (nestedAt level draft).toJson = .ok value ↔
      level < depthLimit ∧ draft.toJson = .ok value := by
  unfold nestedAt
  split
  next deep => exact ⟨nofun, fun both => absurd both.1 (Nat.not_lt.2 deep)⟩
  next shallow => exact (and_iff_right (Nat.lt_of_not_le shallow)).symm

theorem covered_nestedAt (covered : draft.CoveredBy other) (nearer : near ≤ far) :
    (nestedAt far draft).CoveredBy (nestedAt near other) := by
  intro value read
  obtain ⟨shallow, read⟩ := toJson_nestedAt.1 read
  exact toJson_nestedAt.2 ⟨Nat.lt_of_le_of_lt nearer shallow, covered value read⟩

theorem covered_list {items others : List Draft} (parts : List.Forall₂ CoveredBy items others) :
    (Draft.list items .closed).CoveredBy (.list others .closed) := by
  intro value read
  rw [toJson] at read ⊢
  obtain ⟨values, all, rfl⟩ := map_eq_ok_iff.1 read
  obtain ⟨-, related⟩ := itemsToJson_eq_ok_iff.1 all
  refine map_eq_ok_iff.2 ⟨values, itemsToJson_eq_ok_iff.2 ⟨rfl, ?_⟩, rfl⟩
  clear read all
  induction parts generalizing values with
  | nil => exact related
  | cons here _ ih =>
    cases related with
    | cons read later => exact .cons (here _ read) (ih _ later)

theorem covered_object {members others : List (DraftText × Draft)}
    (parts : List.Forall₂ MemberCoveredBy members others) :
    (Draft.object members .closed).CoveredBy (.object others .closed) := by
  intro value read
  rw [toJson] at read ⊢
  obtain ⟨values, all, rfl⟩ := map_eq_ok_iff.1 read
  refine map_eq_ok_iff.2 ⟨values, ?_, rfl⟩
  clear read
  generalize ([] : List (String × Json)) = done at all ⊢
  induction parts generalizing done with
  | nil => exact all
  | cons here _ ih =>
    obtain ⟨key, covered⟩ := here
    rw [membersToJson] at all ⊢
    split at all
    · cases all
    next name named =>
      split at all
      · cases all
      next value read =>
        rw [covered value read]
        exact ih _ all

end Covering

section Simulation

/-- A step over a token that opens something or goes on, taken on two stacks and whatever stands
below. -/
private theorem move_covered (move : Move token inner phase next after) (alike : Alike inner first)
    (covered : StackCoveredBy first second) :
    ∃ first' second', Alike next first' ∧ StackCoveredBy first' second' ∧
      (∀ bottom, Move token (first ++ bottom) phase (first' ++ bottom) after) ∧
      ∀ bottom, Move token (second ++ bottom) phase (second' ++ bottom) after := by
  cases move with
  | openList item =>
    exact ⟨_ :: first, _ :: second, .list alike, .list .nil covered, fun _ => .openList item,
      fun _ => .openList item⟩
  | openObject item =>
    exact ⟨_ :: first, _ :: second, .object alike, .object .nil covered, fun _ => .openObject item,
      fun _ => .openObject item⟩
  | nextItem =>
    cases alike with
    | list alike =>
      cases covered with
      | list parts rest =>
        exact ⟨_ :: _, _ :: _, .list alike, .list parts rest, fun _ => .nextItem, fun _ => .nextItem⟩
  | nextKey =>
    cases alike with
    | object alike =>
      cases covered with
      | object parts rest =>
        exact ⟨_ :: _, _ :: _, .object alike, .object parts rest, fun _ => .nextKey,
          fun _ => .nextKey⟩
  | key key sound =>
    cases alike with
    | object alike =>
      cases covered with
      | object parts rest =>
        exact ⟨_ :: _, _ :: _, .member alike, .member parts rest, fun _ => .key key sound,
          fun _ => .key key sound⟩
  | colon => exact ⟨first, second, alike, covered, fun _ => .colon, fun _ => .colon⟩

/-- The token finishes the value on the stack, wherever so many lists and objects are open below. -/
private def EndsAt (level : Nat) (token : JsonToken) (inner : List OpenDraft) (phase : DraftPhase)
    (draft : Draft) (outer : List OpenDraft) : Prop :=
  ∀ bottom, bottom.length = level → Ends token (inner ++ bottom) phase draft (outer ++ bottom)

private theorem endsAt_closeList {items : List Draft}
    (last : phase = .firstItem ∨ phase = .separator) :
    EndsAt level .closeList (.list items :: outer) phase
      (nestedAt (outer.length + level) (.list items.reverse .closed)) outer := by
  rintro bottom rfl
  rw [← List.length_append, ← nestedIn_eq_nestedAt]
  exact .closeList last

private theorem endsAt_closeObject {members : List (DraftText × Draft)}
    (last : phase = .firstKey ∨ phase = .separator) :
    EndsAt level .closeObject (.object members :: outer) phase
      (nestedAt (outer.length + level) (.object members.reverse .closed)) outer := by
  rintro bottom rfl
  rw [← List.length_append, ← nestedIn_eq_nestedAt]
  exact .closeObject last

/-- A value that is finished with more open around it is covered by the one with less around it. -/
private theorem ends_covered (ends : Ends token inner phase draft outer) (alike : Alike inner first)
    (covered : StackCoveredBy first second) (nearer : near ≤ far) :
    ∃ found found' outer₁ outer₂, Alike outer outer₁ ∧ StackCoveredBy outer₁ outer₂ ∧
      found.CoveredBy found' ∧ EndsAt far token first phase found outer₁ ∧
      EndsAt near token second phase found' outer₂ := by
  cases ends with
  | scalar item scalar =>
    exact ⟨draft, draft, first, second, alike, covered, coveredBy_refl draft,
      fun _ _ => .scalar item scalar, fun _ _ => .scalar item scalar⟩
  | closeList last =>
    cases alike with
    | list alike =>
      cases covered with
      | list parts rest =>
        have room := Nat.add_le_add (Nat.le_of_eq (length_of_stackCovered rest).symm) nearer
        exact ⟨_, _, _, _, alike, rest,
          covered_nestedAt (covered_list (List.forall₂_reverse_iff.2 parts)) room,
          endsAt_closeList last, endsAt_closeList last⟩
  | closeObject last =>
    cases alike with
    | object alike =>
      cases covered with
      | object parts rest =>
        have room := Nat.add_le_add (Nat.le_of_eq (length_of_stackCovered rest).symm) nearer
        exact ⟨_, _, _, _, alike, rest,
          covered_nestedAt (covered_object (List.forall₂_reverse_iff.2 parts)) room,
          endsAt_closeObject last, endsAt_closeObject last⟩

private theorem place_covered (placed : place draft inner = some next) (alike : Alike inner first)
    (covered : StackCoveredBy first second) (values : found.CoveredBy found') :
    ∃ first' second', Alike next first' ∧ StackCoveredBy first' second' ∧
      (∀ bottom, place found (first ++ bottom) = some (first' ++ bottom)) ∧
      ∀ bottom, place found' (second ++ bottom) = some (second' ++ bottom) := by
  cases covered with
  | nil =>
    cases alike
    cases placed
  | list parts rest =>
    cases alike with
    | list alike =>
      cases placed
      exact ⟨_ :: _, _ :: _, .list alike, .list (.cons values parts) rest, fun _ => rfl, fun _ => rfl⟩
  | object parts rest =>
    cases alike with
    | object alike =>
      cases placed
      exact ⟨_ :: _, _ :: _, .object alike, .object parts rest, fun _ => rfl, fun _ => rfl⟩
  | @member _ _ key _ _ parts rest =>
    cases alike with
    | member alike =>
      cases placed
      have parts' := List.Forall₂.cons (MemberCoveredBy.mk key values) parts
      exact ⟨_ :: _, _ :: _, .object alike, .object parts' rest, fun _ => rfl, fun _ => rfl⟩

/-- The tokens are read as the draft to its end, wherever so many lists and objects are open below
the stack. -/
def Builds (level : Nat) (tokens : List JsonToken) (inner : List OpenDraft) (phase : DraftPhase)
    (draft : Draft) : Prop :=
  ∀ bottom, bottom.length = level → ∀ rest,
    build (inner ++ bottom) phase (tokens ++ rest) = finish draft bottom rest

private theorem builds_move
    (move : ∀ bottom, Move token (inner ++ bottom) phase (next ++ bottom) after)
    (later : Builds level tokens next after draft) :
    Builds level (token :: tokens) inner phase draft := by
  intro bottom height rest
  rw [List.cons_append, build_move (move bottom), later bottom height]

private theorem builds_close (ends : EndsAt level token inner phase found outer)
    (placed : ∀ bottom, place found (outer ++ bottom) = some (next ++ bottom))
    (later : Builds level tokens next .separator draft) :
    Builds level (token :: tokens) inner phase draft := by
  intro bottom height rest
  rw [List.cons_append, build_ends (ends bottom height), finish_placed (placed bottom),
    later bottom height]

private theorem builds_last (ends : EndsAt level token inner phase draft []) :
    Builds level [token] inner phase draft := by
  intro bottom height rest
  rw [List.singleton_append, build_ends (ends bottom height), List.nil_append]

/-- A run over a value, taken in two places: the draft in the place where more is open is covered by
the draft in the other place. The induction keeps the two stacks alike, part by part. -/
theorem builds_covered (runs : Runs tokens inner phase draft) (alike : Alike inner first)
    (covered : StackCoveredBy first second) (nearer : near ≤ far) :
    ∃ found found', found.CoveredBy found' ∧ Builds far tokens first phase found ∧
      Builds near tokens second phase found' := by
  induction runs generalizing first second with
  | move move later ih =>
    obtain ⟨_, _, alike', covered', moves, moves'⟩ := move_covered move alike covered
    obtain ⟨found, found', values, builds, builds'⟩ := ih alike' covered'
    exact ⟨found, found', values, builds_move moves builds, builds_move moves' builds'⟩
  | close ends placed later ih =>
    obtain ⟨_, _, _, _, alikeOuter, coveredOuter, values, ended, ended'⟩ :=
      ends_covered ends alike covered nearer
    obtain ⟨_, _, alike', covered', places, places'⟩ :=
      place_covered placed alikeOuter coveredOuter values
    obtain ⟨found, found', values', builds, builds'⟩ := ih alike' covered'
    exact ⟨found, found', values', builds_close ended places builds,
      builds_close ended' places' builds'⟩
  | last ends =>
    obtain ⟨found, found', _, _, alikeOuter, coveredOuter, values, ended, ended'⟩ :=
      ends_covered ends alike covered nearer
    cases alikeOuter
    cases coveredOuter
    exact ⟨found, found', values, builds_last ended, builds_last ended'⟩

end Simulation

section Inside

open Numeral (Stops)

/-- The text is read as the draft wherever a value may stand and so many lists and objects are
open. -/
def SpellsAt (level : Nat) (octets : Octets) (draft : Draft) : Prop :=
  ∀ phase : DraftPhase, phase = .item ∨ phase = .firstItem →
    ∀ stack : List OpenDraft, stack.length = level → ∀ rest, Stops rest →
      build stack phase (JsonToken.scan (octets ++ rest)) = finish draft stack (JsonToken.scan rest)

/-- No value begins as the end of a list. -/
private theorem build_firstItem (runs : Runs tokens [] .item draft) (stack : List OpenDraft)
    (rest : List JsonToken) :
    build stack .firstItem (tokens ++ rest) = build stack .item (tokens ++ rest) := by
  cases runs with
  | move move later =>
    cases move with
    | openList =>
      rw [List.cons_append, build_move (.openList (.inl rfl)), build_move (.openList (.inr rfl))]
    | openObject =>
      rw [List.cons_append, build_move (.openObject (.inl rfl)),
        build_move (.openObject (.inr rfl))]
  | close ends placed later =>
    cases ends with
    | scalar item scalar => cases placed
  | last ends =>
    cases ends with
    | scalar item scalar =>
      rw [List.singleton_append, build_ends (.scalar (.inl rfl) scalar),
        build_ends (.scalar (.inr rfl) scalar)]

/-- A sound text is a draft in every place, and the draft of one place is covered by that of a place
with less around it. -/
theorem spellsAt_covered {octets : Octets} (sound : Json.syntaxFault? octets = none)
    (nearer : near ≤ far) :
    ∃ draft other, SpellsAt far octets draft ∧ SpellsAt near octets other ∧
      draft.CoveredBy other := by
  obtain ⟨whole, runs, -⟩ := runs_of_sound sound
  -- The tokens of the text are the same whatever follows it, as far as it does not go on a number.
  have spells : ∀ {level : Nat} {draft : Draft},
      Builds level (JsonToken.scan octets) [] .item draft → SpellsAt level octets draft := by
    intro level draft builds phase item stack height rest stops
    rw [JsonToken.scan_append octets (isWhole_of_runs runs) stops, ← builds stack height]
    rcases item with rfl | rfl
    · rfl
    · exact build_firstItem runs stack _
  obtain ⟨draft, other, covered, builds, builds'⟩ := builds_covered runs .nil .nil nearer
  exact ⟨draft, other, spells builds, spells builds', covered⟩

theorem scan_of_spellsAt {octets : Octets} (spells : SpellsAt 0 octets draft) :
    scan octets = ⟨draft, false, none⟩ := by
  have built := spells .item (.inl rfl) [] rfl [] trivial
  rw [List.append_nil] at built
  exact built

private theorem scan_items {first : Octets} {texts : List Octets} {drafts : List Draft}
    (here : SpellsAt 1 first draft) (later : List.Forall₂ (SpellsAt 1) texts drafts)
    (done : List Draft) (item : phase = .item ∨ phase = .firstItem) :
    build [.list done] phase
        (JsonToken.scan (Json.commaSeparated (first :: texts) ++ [0x5D])) =
      ⟨.list (done.reverse ++ draft :: drafts) .closed, false, none⟩ := by
  induction later generalizing first draft done phase with
  | nil =>
    rw [Json.commaSeparated, here phase item _ rfl _ (stops_of_mark _ _ (by simp)),
      finish_placed rfl, JsonToken.scan_closeList, build_ends (.closeList (.inr rfl)),
      List.reverse_cons]
    rfl
  | @cons second _ texts _ spells _ ih =>
    have text : Json.commaSeparated (first :: second :: texts) ++ [0x5D] =
        first ++ 0x2C :: (Json.commaSeparated (second :: texts) ++ [0x5D]) := by
      simp [Json.commaSeparated]
    rw [text, here phase item _ rfl _ (stops_of_mark _ _ (by simp)), finish_placed rfl,
      JsonToken.scan_comma, build_move .nextItem, ih spells _ (.inl rfl), List.reverse_cons,
      List.append_assoc]
    rfl

/-- The draft of a list of texts, each taken as it is inside a list. -/
theorem scan_list {texts : List Octets} {drafts : List Draft}
    (spelled : List.Forall₂ (SpellsAt 1) texts drafts) :
    scan (Json.listOctets texts) = ⟨.list drafts .closed, false, none⟩ := by
  rw [scan, Json.listOctets, List.cons_append, JsonToken.scan_openList,
    build_move (.openList (.inl rfl))]
  cases spelled with
  | nil => rfl
  | cons here later => exact scan_items here later [] (.inr rfl)

/-- A key and its value, up to what follows the value. -/
private theorem scan_member {member : Member} (spelled : SpellsAt 1 member.octets member.draft)
    (done : List (DraftText × Draft)) (key : phase = .firstKey ∨ phase = .key) {rest : Octets}
    (stops : Stops rest) :
    build [.object done] phase (JsonToken.scan (member.text ++ rest)) =
      build [.object (member.read :: done)] .separator (JsonToken.scan rest) := by
  have draft : (QuotedString.ofText member.key).draft = ⟨.ok member.key, none⟩ := by
    rw [QuotedString.draft, QuotedString.read_ofText]
    rfl
  have text : member.text ++ rest =
      Json.stringOctets member.key ++ 0x3A :: (member.octets ++ rest) := by
    simp [Member.text]
  rw [text, JsonToken.scan_stringOctets, JsonToken.scan_colon, build_move (.key key rfl),
    build_move .colon, draft, spelled .item (.inl rfl) _ rfl rest stops]
  exact finish_placed rfl _

private theorem scan_members (members : List Member) (first : Member)
    (spelled : ∀ member ∈ first :: members, SpellsAt 1 member.octets member.draft)
    (done : List (DraftText × Draft)) {phase : DraftPhase}
    (key : phase = .firstKey ∨ phase = .key) :
    build [.object done] phase
        (JsonToken.scan (Json.commaSeparated ((first :: members).map Member.text) ++ [0x7D])) =
      ⟨.object (done.reverse ++ (first :: members).map Member.read) .closed, false, none⟩ := by
  induction members generalizing first done phase with
  | nil =>
    rw [List.map_singleton, Json.commaSeparated,
      scan_member (spelled first (by simp)) done key (stops_of_mark _ _ (by simp)),
      JsonToken.scan_closeObject, build_ends (.closeObject (.inr rfl)), List.reverse_cons]
    rfl
  | cons second more ih =>
    have text : Json.commaSeparated ((first :: second :: more).map Member.text) ++ [0x7D] =
        first.text ++
          0x2C :: (Json.commaSeparated ((second :: more).map Member.text) ++ [0x7D]) := by
      simp [Json.commaSeparated]
    rw [text, scan_member (spelled first (by simp)) done key (stops_of_mark _ _ (by simp)),
      JsonToken.scan_comma, build_move .nextKey,
      ih second (fun member later => spelled member (List.mem_cons_of_mem _ later)) _ (.inr rfl),
      List.reverse_cons, List.append_assoc]
    rfl

/-- The draft of an object of texts, each taken as it is inside an object. -/
theorem scan_object (members : List Member)
    (spelled : ∀ member ∈ members, SpellsAt 1 member.octets member.draft) :
    scan (Json.objectOctets (members.map fun member => (member.key, member.octets))) =
      ⟨.object (members.map Member.read) .closed, false, none⟩ := by
  have text : Json.objectOctets (members.map fun member => (member.key, member.octets)) =
      0x7B :: (Json.commaSeparated (members.map Member.text) ++ [0x7D]) := by
    rw [Json.objectOctets, List.map_map]
    rfl
  rw [scan, text, JsonToken.scan_openObject, build_move (.openObject (.inl rfl))]
  cases members with
  | nil => rfl
  | cons first more => exact scan_members more first spelled [] (.inl rfl)

end Inside

/-- Members whose keys are known are read when their values are; later ones replace earlier ones. -/
theorem membersToJson_eq_ok_iff {members : List Member} {done all : List (String × Json)} :
    membersToJson .closed done (members.map Member.read) = .ok all ↔
      ∃ values : List (String × Json), List.Forall₂ (fun member value =>
        value.1 = member.key ∧ member.draft.toJson = .ok value.2) members values ∧
        all = Keyed.insertAll values done := by
  induction members generalizing done with
  | nil => simp [membersToJson, Keyed.insertAll, eq_comm]
  | cons member rest ih =>
    rw [List.map_cons, Member.read, membersToJson]
    dsimp only
    cases read : member.draft.toJson with
    | error fault =>
      constructor
      · rintro ⟨⟩
      · rintro ⟨_, related, -⟩
        cases related with
        | cons here later =>
          rw [read] at here
          cases here.2
    | ok value =>
      dsimp only
      rw [ih]
      constructor
      · rintro ⟨values, later, rfl⟩
        exact ⟨(member.key, value) :: values, .cons ⟨rfl, read⟩ later, rfl⟩
      · rintro ⟨_, related, rfl⟩
        cases related with
        | @cons _ pair _ values here later =>
          obtain ⟨key, other⟩ := pair
          obtain ⟨rfl, here⟩ := here
          rw [read] at here
          cases here
          exact ⟨values, later, rfl⟩

end Draft

namespace Json

open Draft (SpellsAt Member)

variable {octets : Octets} {value : Json}

/-- The text is read as the value inside a list or an object. -/
def ReadInside (octets : Octets) (value : Json) : Prop :=
  Json.read (listOctets [octets]) = .ok (.list [value])

/-- A member of an object, as a text and as a value. -/
def MemberReadInside (text : String × Octets) (member : String × Json) : Prop :=
  member.1 = text.1 ∧ ReadInside text.2 member.2

private theorem read_iff_of_scan {draft : Draft}
    (scanned : Draft.scan octets = ⟨draft, false, none⟩) :
    Json.read octets = .ok value ↔ draft.toJson = .ok value := by
  rw [Json.read, scanned]
  cases draft.toJson <;> exact Iff.rfl

theorem readInside_iff {draft : Draft} (spells : SpellsAt 1 octets draft) :
    ReadInside octets value ↔ draft.toJson = .ok value := by
  have scanned := Draft.scan_list (.cons spells .nil)
  rw [ReadInside, read_iff_of_scan scanned, Draft.toJson, map_eq_ok_iff]
  constructor
  · rintro ⟨values, all, same⟩
    cases same
    obtain ⟨-, related⟩ := Draft.itemsToJson_eq_ok_iff.1 all
    cases related with
    | cons here _ => exact here
  · intro read
    exact ⟨[value], Draft.itemsToJson_eq_ok_iff.2 ⟨rfl, .cons read .nil⟩, rfl⟩

/-- What is read of a text inside something is read of it by itself. -/
theorem read_of_readInside (sound : syntaxFault? octets = none)
    (inside : ReadInside octets value) : Json.read octets = .ok value := by
  obtain ⟨draft, other, spells, spells', covered⟩ :=
    Draft.spellsAt_covered sound (Nat.zero_le 1)
  rw [readInside_iff spells] at inside
  exact (read_iff_of_scan (Draft.scan_of_spellsAt spells')).2 (covered value inside)

private theorem exists_spellsAt (sound : syntaxFault? octets = none) :
    ∃ draft, SpellsAt 1 octets draft := by
  obtain ⟨draft, -, spells, -⟩ := Draft.spellsAt_covered sound (Nat.le_refl 1)
  exact ⟨draft, spells⟩

/-- A list of sound texts is sound. -/
theorem syntaxFault?_list {texts : List Octets} (sound : ∀ text ∈ texts, syntaxFault? text = none) :
    syntaxFault? (listOctets texts) = none := by
  obtain ⟨drafts, spells⟩ := exists_forall₂ fun text member => exists_spellsAt (sound text member)
  rw [syntaxFault?, Draft.scan_list spells]

/-- A list of sound texts is read just when all of them are read inside something. -/
theorem read_list_iff {texts : List Octets} (sound : ∀ text ∈ texts, syntaxFault? text = none) :
    Json.read (listOctets texts) = .ok value ↔
      ∃ items, List.Forall₂ ReadInside texts items ∧ value = .list items := by
  obtain ⟨drafts, spells⟩ := exists_forall₂ fun text member => exists_spellsAt (sound text member)
  have each : ∀ items, List.Forall₂ ReadInside texts items ↔
      List.Forall₂ (fun draft item => draft.toJson = .ok item) drafts items := by
    clear sound
    induction spells with
    | nil => exact fun items => by simp
    | cons here _ ih =>
      intro items
      cases items with
      | nil => simp
      | cons item rest => rw [List.forall₂_cons, List.forall₂_cons, readInside_iff here, ih]
  rw [read_iff_of_scan (Draft.scan_list spells), Draft.toJson, map_eq_ok_iff]
  simp only [Draft.itemsToJson_eq_ok_iff, true_and, each, @eq_comm _ value]

private theorem exists_told {texts : List (String × Octets)}
    (sound : ∀ text ∈ texts, syntaxFault? text.2 = none) :
    ∃ told : List Member, (told.map fun member => (member.key, member.octets)) = texts ∧
      ∀ member ∈ told, SpellsAt 1 member.octets member.draft := by
  induction texts with
  | nil => exact ⟨[], rfl, List.forall_mem_nil _⟩
  | cons text rest ih =>
    obtain ⟨here, later⟩ := List.forall_mem_cons.1 sound
    obtain ⟨draft, spells⟩ := exists_spellsAt here
    obtain ⟨told, rfl, spellsLater⟩ := ih later
    exact ⟨⟨text.1, text.2, draft⟩ :: told, rfl, List.forall_mem_cons.2 ⟨spells, spellsLater⟩⟩

/-- An object of sound texts is sound. -/
theorem syntaxFault?_object {texts : List (String × Octets)}
    (sound : ∀ text ∈ texts, syntaxFault? text.2 = none) :
    syntaxFault? (objectOctets texts) = none := by
  obtain ⟨told, rfl, spells⟩ := exists_told sound
  rw [syntaxFault?, Draft.scan_object told spells]

/-- An object of sound texts is read just when all of them are read inside something. -/
theorem read_object_iff {texts : List (String × Octets)}
    (sound : ∀ text ∈ texts, syntaxFault? text.2 = none) :
    Json.read (objectOctets texts) = .ok value ↔
      ∃ members, List.Forall₂ MemberReadInside texts members ∧
        value = .object (Keyed.insertAll members []) := by
  obtain ⟨told, rfl, spells⟩ := exists_told sound
  have each : ∀ members,
      List.Forall₂ MemberReadInside (told.map fun member => (member.key, member.octets)) members ↔
        List.Forall₂ (fun member value => value.1 = member.key ∧
          member.draft.toJson = .ok value.2) told members := by
    intro members
    rw [List.forall₂_map_left_iff]
    refine ⟨fun all => ?_, fun all => ?_⟩ <;> refine forall₂_imp_of_mem all ?_
    · rintro member listed value ⟨key, inside⟩
      exact ⟨key, (readInside_iff (spells member listed)).1 inside⟩
    · rintro member listed value ⟨key, read⟩
      exact ⟨key, (readInside_iff (spells member listed)).2 read⟩
  rw [read_iff_of_scan (Draft.scan_object told spells), Draft.toJson, map_eq_ok_iff]
  simp only [Draft.membersToJson_eq_ok_iff, each]
  constructor
  · rintro ⟨_, ⟨members, all, rfl⟩, rfl⟩
    exact ⟨members, all, rfl⟩
  · rintro ⟨members, all, rfl⟩
    exact ⟨_, ⟨members, all, rfl⟩, rfl⟩

end Json

end Columnar
