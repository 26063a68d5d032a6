import Columnar.Json.Draft
import Columnar.Proofs.Json.Tokens

/-! Sound texts and their drafts. Reading a sound text, each token opens something, goes on inside
what is open, or finishes a value; any other token is a fault. A text that spells a draft does so
wherever a value may stand, and texts that spell drafts spell lists and objects of them. -/
namespace Columnar.Draft

variable {token : JsonToken} {rest : List JsonToken} {stack outer next : List OpenDraft}
variable {phase after : DraftPhase} {draft : Draft}

/-- A finished value is put where it belongs, and reading goes on behind it. -/
def finish (draft : Draft) (outer : List OpenDraft) (rest : List JsonToken) : DraftScan :=
  match place draft outer with
  | some stack => build stack .separator rest
  | none =>
    if rest.isEmpty then ⟨draft, false, none⟩ else ⟨draft, true, some .trailingCharacters⟩

theorem finish_placed (placed : place draft outer = some next) (rest : List JsonToken) :
    finish draft outer rest = build next .separator rest := by
  rw [finish, placed]

/-- A token that is a value by itself. -/
inductive Scalar : JsonToken → Draft → Prop
  | null : Scalar (.word .null) .null
  | true : Scalar (.word .true) (.bool true)
  | false : Scalar (.word .false) (.bool false)
  | number (n : Numeral) : Scalar (.number n) (.number n.value)
  | string {s : QuotedString} (sound : s.skipFault = none) : Scalar (.string s) (.string s.draft)

/-- A token that opens something or goes on inside what is open. -/
inductive Move : JsonToken → List OpenDraft → DraftPhase → List OpenDraft → DraftPhase → Prop
  | openList {stack : List OpenDraft} {phase : DraftPhase}
      (item : phase = .item ∨ phase = .firstItem) :
      Move .openList stack phase (.list [] :: stack) .firstItem
  | openObject {stack : List OpenDraft} {phase : DraftPhase}
      (item : phase = .item ∨ phase = .firstItem) :
      Move .openObject stack phase (.object [] :: stack) .firstKey
  | nextItem {items : List Draft} {outer : List OpenDraft} :
      Move .comma (.list items :: outer) .separator (.list items :: outer) .item
  | nextKey {members : List (DraftText × Draft)} {outer : List OpenDraft} :
      Move .comma (.object members :: outer) .separator (.object members :: outer) .key
  | key {members : List (DraftText × Draft)} {outer : List OpenDraft} {phase : DraftPhase}
      {s : QuotedString} (key : phase = .firstKey ∨ phase = .key) (sound : s.skipFault = none) :
      Move (.string s) (.object members :: outer) phase (.member members s.draft :: outer) .colon
  | colon {stack : List OpenDraft} : Move .colon stack .colon stack .item

/-- A token that finishes a value. -/
inductive Ends : JsonToken → List OpenDraft → DraftPhase → Draft → List OpenDraft → Prop
  | scalar {token : JsonToken} {stack : List OpenDraft} {phase : DraftPhase} {draft : Draft}
      (item : phase = .item ∨ phase = .firstItem) (scalar : Scalar token draft) :
      Ends token stack phase draft stack
  | closeList {items : List Draft} {outer : List OpenDraft} {phase : DraftPhase}
      (last : phase = .firstItem ∨ phase = .separator) :
      Ends .closeList (.list items :: outer) phase (nestedIn outer (.list items.reverse .closed))
        outer
  | closeObject {members : List (DraftText × Draft)} {outer : List OpenDraft} {phase : DraftPhase}
      (last : phase = .firstKey ∨ phase = .separator) :
      Ends .closeObject (.object members :: outer) phase
        (nestedIn outer (.object members.reverse .closed)) outer

theorem build_move (move : Move token stack phase next after) (rest : List JsonToken) :
    build stack phase (token :: rest) = build next after rest := by
  cases move with
  | openList item => rcases item with rfl | rfl <;> rfl
  | openObject item => rcases item with rfl | rfl <;> rfl
  | nextItem => rfl
  | nextKey => rfl
  | key key sound => rcases key with rfl | rfl <;> simp only [build, sound]
  | colon => rfl

theorem build_ends (ends : Ends token stack phase draft outer) (rest : List JsonToken) :
    build stack phase (token :: rest) = finish draft outer rest := by
  cases ends with
  | scalar item scalar =>
    cases scalar with
    | string sound =>
      rcases item with rfl | rfl
      · simp only [build, sound]
        rfl
      · simp only [build, sound]
        rfl
    | _ => rcases item with rfl | rfl <;> rfl
  | closeList last => rcases last with rfl | rfl <;> rfl
  | closeObject last => rcases last with rfl | rfl <;> rfl

/-- A fault of the text, at which everything ends that is open. -/
inductive Fails : List OpenDraft → DraftScan → Prop
  | value {stack : List OpenDraft} (reading skipping : SyntaxFault) :
      Fails stack (failValue reading skipping stack)
  | between {stack : List OpenDraft} (reading skipping : SyntaxFault) :
      Fails stack (failBetween reading skipping stack)
  | string {stack : List OpenDraft} {s : QuotedString} {fault : SyntaxFault}
      (broken : s.skipFault = some fault) :
      Fails stack ⟨abandon (.string s.draft) stack, false, some fault⟩
  | key {members : List (DraftText × Draft)} {outer : List OpenDraft} {s : QuotedString}
      {fault : SyntaxFault} (broken : s.skipFault = some fault) :
      Fails (.object members :: outer)
        ⟨abandon .null (.member members s.draft :: outer), false, some fault⟩

theorem skipFault_of_fails {scan : DraftScan} (fails : Fails stack scan) :
    scan.skipFault ≠ none := by
  cases fails with
  | between reading skipping =>
    unfold failBetween
    split <;> simp
  | _ => simp [failValue]

/-- A value begins with a token that opens something or is a value. -/
private theorem begins_value (item : phase = .item ∨ phase = .firstItem)
    (other : ¬(token = .closeList ∧ phase = .firstItem)) :
    (∃ next after, Move token stack phase next after) ∨
      (∃ draft outer, Ends token stack phase draft outer) ∨
        Fails stack (build stack phase (token :: rest)) := by
  cases token with
  | openList => exact .inl ⟨_, _, .openList item⟩
  | openObject => exact .inl ⟨_, _, .openObject item⟩
  | word w =>
    cases w with
    | null => exact .inr (.inl ⟨_, _, .scalar item .null⟩)
    | true => exact .inr (.inl ⟨_, _, .scalar item .true⟩)
    | false => exact .inr (.inl ⟨_, _, .scalar item .false⟩)
  | number n => exact .inr (.inl ⟨_, _, .scalar item (.number n)⟩)
  | string s =>
    cases fault : s.skipFault with
    | none => exact .inr (.inl ⟨_, _, .scalar item (.string fault)⟩)
    | some found =>
      have cut : Fails stack ⟨abandon (.string s.draft) stack, false, some found⟩ := .string fault
      refine .inr (.inr ?_)
      rcases item with rfl | rfl
      · simpa only [build, fault] using cut
      · simpa only [build, fault] using cut
  | closeList =>
    rcases item with rfl | rfl
    · exact .inr (.inr (.value _ .expectedValue))
    · exact absurd ⟨rfl, rfl⟩ other
  | brokenWord fault => rcases item with rfl | rfl <;> exact .inr (.inr (.value fault fault))
  | brokenNumber reading skipping =>
    rcases item with rfl | rfl <;> exact .inr (.inr (.value reading skipping))
  | _ =>
    rcases item with rfl | rfl <;> exact .inr (.inr (.value .expectedValue .expectedValue))

/-- A key is a sound string inside an object. -/
private theorem begins_key (key : phase = .firstKey ∨ phase = .key)
    (other : ¬(token = .closeObject ∧ phase = .firstKey)) :
    (∃ next after, Move token stack phase next after) ∨
      Fails stack (build stack phase (token :: rest)) := by
  have noString : Fails stack (failBetween .keyNotString .keyNotString stack) := .between ..
  cases token with
  | string s =>
    cases stack with
    | nil => rcases key with rfl | rfl <;> exact .inr noString
    | cons top outer =>
      cases top with
      | object members =>
        cases fault : s.skipFault with
        | none => exact .inl ⟨_, _, .key key fault⟩
        | some found =>
          have cut : Fails (.object members :: outer)
              ⟨abandon .null (.member members s.draft :: outer), false, some found⟩ := .key fault
          refine .inr ?_
          rcases key with rfl | rfl
          · simpa only [build, fault] using cut
          · simpa only [build, fault] using cut
      | _ => rcases key with rfl | rfl <;> exact .inr noString
  | closeObject =>
    rcases key with rfl | rfl
    · exact absurd ⟨rfl, rfl⟩ other
    · exact .inr (.between .trailingComma .keyNotString)
  | _ => rcases key with rfl | rfl <;> exact .inr noString

/-- Every token opens something, goes on inside what is open, finishes a value, or is a fault. -/
theorem step_cases (token : JsonToken) (stack : List OpenDraft) (phase : DraftPhase)
    (rest : List JsonToken) :
    (∃ next after, Move token stack phase next after) ∨
      (∃ draft outer, Ends token stack phase draft outer) ∨
        Fails stack (build stack phase (token :: rest)) := by
  cases phase with
  | item => exact begins_value (.inl rfl) fun both => nomatch both.2
  | firstItem =>
    by_cases closes : token = .closeList
    · subst closes
      have noValue : Fails stack (failValue .expectedValue .expectedValue stack) := .value ..
      cases stack with
      | nil => exact .inr (.inr noValue)
      | cons top outer =>
        cases top with
        | list items => exact .inr (.inl ⟨_, _, .closeList (.inl rfl)⟩)
        | _ => exact .inr (.inr noValue)
    · exact begins_value (.inr rfl) fun both => closes both.1
  | separator =>
    have noItem : Fails stack (failBetween .expectedListSeparator .expectedListSeparator stack) :=
      .between ..
    have noKey : Fails stack (failBetween .expectedObjectSeparator .expectedObjectSeparator stack) :=
      .between ..
    cases stack with
    | nil => cases token <;> exact .inr (.inr noKey)
    | cons top outer =>
      cases top with
      | list items =>
        cases token with
        | comma => exact .inl ⟨_, _, .nextItem⟩
        | closeList => exact .inr (.inl ⟨_, _, .closeList (.inr rfl)⟩)
        | _ => exact .inr (.inr noItem)
      | object members =>
        cases token with
        | comma => exact .inl ⟨_, _, .nextKey⟩
        | closeObject => exact .inr (.inl ⟨_, _, .closeObject (.inr rfl)⟩)
        | _ => exact .inr (.inr noKey)
      | member members key => cases token <;> exact .inr (.inr noKey)
  | firstKey =>
    by_cases closes : token = .closeObject
    · subst closes
      have noString : Fails stack (failBetween .keyNotString .keyNotString stack) := .between ..
      cases stack with
      | nil => exact .inr (.inr noString)
      | cons top outer =>
        cases top with
        | object members => exact .inr (.inl ⟨_, _, .closeObject (.inl rfl)⟩)
        | _ => exact .inr (.inr noString)
    · exact (begins_key (.inl rfl) fun both => closes both.1).imp id .inr
  | key => exact (begins_key (.inr rfl) fun both => nomatch both.2).imp id .inr
  | colon =>
    cases token with
    | colon => exact .inl ⟨_, _, .colon⟩
    | _ => exact .inr (.inr (.between .expectedColon .expectedColon))

/-- In a sound text every token opens, goes on or finishes. -/
theorem moves_or_ends (sound : (build stack phase (token :: rest)).skipFault = none) :
    (∃ next after, Move token stack phase next after) ∨
      ∃ draft outer, Ends token stack phase draft outer := by
  rcases step_cases token stack phase rest with move | ends | fails
  · exact .inl move
  · exact .inr ends
  · exact absurd sound (skipFault_of_fails fails)

/-- A text that ends while something is open has a fault. -/
theorem atEnd_fails (stack : List OpenDraft) (phase : DraftPhase) :
    Fails stack (build stack phase []) := by
  cases phase with
  | item => exact .value .endInValue .endInValue
  | separator =>
    cases stack with
    | nil => exact .between .endInObject .endInObject
    | cons top outer =>
      cases top with
      | list items => exact .between .endInList .endInList
      | _ => exact .between .endInObject .endInObject
  | firstItem => exact .between .endInList .endInList
  | key => exact .between .endInValue .endInObject
  | _ => exact .between .endInObject .endInObject

/-- A run over the tokens of one value, from a place inside it to its end. -/
inductive Runs : List JsonToken → List OpenDraft → DraftPhase → Draft → Prop
  | move {token : JsonToken} {rest : List JsonToken} {stack next : List OpenDraft}
      {phase after : DraftPhase} {draft : Draft} (move : Move token stack phase next after)
      (later : Runs rest next after draft) : Runs (token :: rest) stack phase draft
  | close {token : JsonToken} {rest : List JsonToken} {stack outer next : List OpenDraft}
      {phase : DraftPhase} {inner draft : Draft} (ends : Ends token stack phase inner outer)
      (placed : place inner outer = some next) (later : Runs rest next .separator draft) :
      Runs (token :: rest) stack phase draft
  | last {token : JsonToken} {stack : List OpenDraft} {phase : DraftPhase} {draft : Draft}
      (ends : Ends token stack phase draft []) : Runs [token] stack phase draft

/-- A sound text is run over from its beginning to its end. -/
theorem runs_of_sound {tokens : List JsonToken}
    (sound : (build stack phase tokens).skipFault = none) :
    ∃ draft, Runs tokens stack phase draft ∧ build stack phase tokens = ⟨draft, false, none⟩ := by
  induction tokens generalizing stack phase with
  | nil => exact absurd sound (skipFault_of_fails (atEnd_fails stack phase))
  | cons token rest ih =>
    rcases moves_or_ends sound with ⟨next, after, move⟩ | ⟨inner, outer, ends⟩
    · rw [build_move move] at sound ⊢
      obtain ⟨draft, runs, built⟩ := ih sound
      exact ⟨draft, .move move runs, built⟩
    · rw [build_ends ends] at sound ⊢
      unfold finish at sound ⊢
      cases placed : place inner outer with
      | some next =>
        rw [placed] at sound
        obtain ⟨draft, runs, built⟩ := ih sound
        exact ⟨draft, .close ends placed runs, built⟩
      | none =>
        rw [placed] at sound
        cases rest with
        | cons _ _ => cases sound
        | nil =>
          have whole : outer = [] := by
            cases outer with
            | nil => rfl
            | cons top outer => cases top <;> cases placed
          subst whole
          exact ⟨inner, .last ends, rfl⟩

private theorem isWhole_of_move (move : Move token stack phase next after) :
    token.isWhole = true := by
  cases move with
  | key key sound =>
    rename_i s
    cases ending : s.ending <;> simp_all [QuotedString.skipFault, JsonToken.isWhole]
  | _ => rfl

private theorem isWhole_of_ends (ends : Ends token stack phase draft outer) :
    token.isWhole = true := by
  cases ends with
  | scalar item scalar =>
    cases scalar with
    | string sound =>
      rename_i s
      cases ending : s.ending <;> simp_all [QuotedString.skipFault, JsonToken.isWhole]
    | _ => rfl
  | _ => rfl

theorem isWhole_of_runs {tokens : List JsonToken} (runs : Runs tokens stack phase draft) :
    ∀ token ∈ tokens, token.isWhole = true := by
  induction runs with
  | move move later ih =>
    intro token member
    rcases List.mem_cons.1 member with rfl | member
    · exact isWhole_of_move move
    · exact ih token member
  | close ends placed later ih =>
    intro token member
    rcases List.mem_cons.1 member with rfl | member
    · exact isWhole_of_ends ends
    · exact ih token member
  | last ends =>
    intro token member
    rw [List.mem_singleton.1 member]
    exact isWhole_of_ends ends

section Depth

/-- How many lists and objects are open after a token. -/
def levelAfter (depth : Nat) : JsonToken → Nat
  | .openList | .openObject => depth + 1
  | .closeList | .closeObject => depth - 1
  | _ => depth

/-- No more lists and objects are open at once than the limit, from a depth on. -/
def staysWithin (depth : Nat) : List JsonToken → Bool
  | [] => decide (depth ≤ depthLimit)
  | token :: rest => decide (depth ≤ depthLimit) && staysWithin (levelAfter depth token) rest

theorem staysWithin_cons {depth : Nat} :
    staysWithin depth (token :: rest) = true ↔
      depth ≤ depthLimit ∧ staysWithin (levelAfter depth token) rest = true := by
  rw [staysWithin, Bool.and_eq_true, decide_eq_true_eq]

/-- Nothing is marked while fewer are open than the limit. -/
theorem nestedIn_eq (shallow : outer.length < depthLimit) (draft : Draft) :
    nestedIn outer draft = draft := by
  rw [nestedIn, if_neg]
  rw [List.length_take]
  omega

/-- Nothing more is marked inside others, while fewer are open than the limit. -/
theorem nestedIn_inside (shallow : outer.length + 1 + stack.length ≤ depthLimit) (draft : Draft) :
    nestedIn (outer ++ stack) draft = nestedIn outer draft := by
  rw [nestedIn_eq (by simp; omega), nestedIn_eq (by omega)]

end Depth

/-- Two stacks on which the same kinds of things are open. -/
inductive Alike : List OpenDraft → List OpenDraft → Prop
  | nil : Alike [] []
  | list {items others : List Draft} {outer outer' : List OpenDraft} (alike : Alike outer outer') :
      Alike (.list items :: outer) (.list others :: outer')
  | object {members others : List (DraftText × Draft)} {outer outer' : List OpenDraft}
      (alike : Alike outer outer') : Alike (.object members :: outer) (.object others :: outer')
  | member {members others : List (DraftText × Draft)} {key key' : DraftText}
      {outer outer' : List OpenDraft} (alike : Alike outer outer') :
      Alike (.member members key :: outer) (.member others key' :: outer')

/-- A step inside a value is the same step when the value stands inside others. -/
private theorem move_inside {inner other : List OpenDraft}
    (move : Move token inner phase next after) (alike : Alike inner other) (stack : List OpenDraft) :
    ∃ next', Move token (other ++ stack) phase (next' ++ stack) after ∧ Alike next next' ∧
      next'.length + stack.length = levelAfter (other.length + stack.length) token ∧
      (other = inner → next' = next) := by
  cases move with
  | openList item =>
    refine ⟨_ :: other, .openList item, .list alike, ?_, ?_⟩
    · simp [levelAfter]; omega
    · rintro rfl; rfl
  | openObject item =>
    refine ⟨_ :: other, .openObject item, .object alike, ?_, ?_⟩
    · simp [levelAfter]; omega
    · rintro rfl; rfl
  | nextItem =>
    cases alike with
    | list alike => exact ⟨_ :: _, .nextItem, .list alike, rfl, id⟩
  | nextKey =>
    cases alike with
    | object alike => exact ⟨_ :: _, .nextKey, .object alike, rfl, id⟩
  | key key sound =>
    cases alike with
    | object alike =>
      refine ⟨_ :: _, .key key sound, .member alike, rfl, fun same => ?_⟩
      cases same
      rfl
  | colon => exact ⟨other, .colon, alike, rfl, id⟩

/-- A value that ends inside another one ends there too when that one stands inside others; and it
is the same value while no more are open than the limit. -/
private theorem ends_inside {inner other : List OpenDraft}
    (ends : Ends token inner phase draft outer) (alike : Alike inner other) (stack : List OpenDraft) :
    ∃ found outer', Ends token (other ++ stack) phase found (outer' ++ stack) ∧
      Alike outer outer' ∧
      outer'.length + stack.length = levelAfter (other.length + stack.length) token ∧
      (other = inner → other.length + stack.length ≤ depthLimit →
        found = draft ∧ outer' = outer) := by
  cases ends with
  | scalar item scalar =>
    refine ⟨draft, other, .scalar item scalar, alike, ?_, fun same _ => ⟨rfl, same⟩⟩
    cases scalar <;> rfl
  | closeList last =>
    cases alike with
    | list alike =>
      refine ⟨_, _, .closeList last, alike, by simp [levelAfter], fun same shallow => ?_⟩
      cases same
      exact ⟨nestedIn_inside (by simpa using shallow) _, rfl⟩
  | closeObject last =>
    cases alike with
    | object alike =>
      refine ⟨_, _, .closeObject last, alike, by simp [levelAfter], fun same shallow => ?_⟩
      cases same
      exact ⟨nestedIn_inside (by simpa using shallow) _, rfl⟩

/-- A value that is placed inside another one is placed there too when that one stands inside
others. -/
private theorem place_inside {inner next other : List OpenDraft}
    (placed : place draft inner = some next) (alike : Alike inner other) (found : Draft)
    (stack : List OpenDraft) :
    ∃ next', place found (other ++ stack) = some (next' ++ stack) ∧ Alike next next' ∧
      next'.length = other.length ∧ (other = inner → found = draft → next' = next) := by
  cases alike with
  | nil => cases placed
  | list alike =>
    cases placed
    refine ⟨_ :: _, rfl, .list alike, rfl, fun same value => ?_⟩
    cases same
    rw [value]
  | object alike =>
    cases placed
    refine ⟨_ :: _, rfl, .object alike, rfl, fun same _ => ?_⟩
    cases same
    rfl
  | member alike =>
    cases placed
    refine ⟨_ :: _, rfl, .object alike, rfl, fun same value => ?_⟩
    cases same
    rw [value]

/-- A run over a value is the same run when the value stands inside others and more follows; and it
ends with the same draft while no more are open than the limit. -/
theorem build_of_runs {tokens : List JsonToken} {inner : List OpenDraft}
    (runs : Runs tokens inner phase draft) {other : List OpenDraft} (alike : Alike inner other)
    (stack : List OpenDraft) (rest : List JsonToken) :
    ∃ found, build (other ++ stack) phase (tokens ++ rest) = finish found stack rest ∧
      (other = inner → staysWithin (other.length + stack.length) (tokens ++ rest) = true →
        found = draft ∧ staysWithin stack.length rest = true) := by
  induction runs generalizing other with
  | move move later ih =>
    obtain ⟨next', moved, alike', level, same'⟩ := move_inside move alike stack
    obtain ⟨found, built, equal⟩ := ih alike'
    refine ⟨found, by rw [List.cons_append, build_move moved, built], fun same within => ?_⟩
    rw [List.cons_append, staysWithin_cons, ← level] at within
    exact equal (same' same) within.2
  | close ends placed later ih =>
    obtain ⟨inside, outer', ended, alike', level, same'⟩ := ends_inside ends alike stack
    obtain ⟨next', placed', alikeNext, length, sameNext⟩ :=
      place_inside placed alike' inside stack
    obtain ⟨found, built, equal⟩ := ih alikeNext
    refine ⟨found, ?_, fun same within => ?_⟩
    · rw [List.cons_append, build_ends ended, finish_placed placed', built]
    · rw [List.cons_append, staysWithin_cons, ← level, ← length] at within
      obtain ⟨value, outers⟩ := same' same within.1
      exact equal (sameNext outers value) within.2
  | last ends =>
    obtain ⟨found, outer', ended, alike', level, same'⟩ := ends_inside ends alike stack
    cases alike'
    refine ⟨found, by rw [List.singleton_append, build_ends ended, List.nil_append], ?_⟩
    intro same within
    rw [List.singleton_append, staysWithin_cons, ← level] at within
    exact ⟨(same' same within.1).1, by simpa using within.2⟩

section Spelling

open Numeral (Stops)

/-- A text spells a draft when it is read as a value wherever one may stand, and as this draft unless
more lists and objects are open than the limit. -/
def Spells (octets : Octets) (draft : Draft) : Prop :=
  ∀ phase : DraftPhase, phase = .item ∨ phase = .firstItem →
    ∀ (stack : List OpenDraft) (rest : Octets), Stops rest →
      ∃ found, build stack phase (JsonToken.scan (octets ++ rest)) =
          finish found stack (JsonToken.scan rest) ∧
        (staysWithin stack.length (JsonToken.scan (octets ++ rest)) = true →
          found = draft ∧ staysWithin stack.length (JsonToken.scan rest) = true)

private theorem runs_firstItem {tokens : List JsonToken} (runs : Runs tokens stack .item draft) :
    Runs tokens stack .firstItem draft := by
  cases runs with
  | move move later =>
    cases move with
    | openList => exact .move (.openList (.inr rfl)) later
    | openObject => exact .move (.openObject (.inr rfl)) later
    | key key => rcases key with key | key <;> cases key
  | close ends placed later =>
    cases ends with
    | scalar item scalar => exact .close (.scalar (.inr rfl) scalar) placed later
    | closeList last => rcases last with last | last <;> cases last
    | closeObject last => rcases last with last | last <;> cases last
  | last ends =>
    cases ends with
    | scalar item scalar => exact .last (.scalar (.inr rfl) scalar)
    | closeList last => rcases last with last | last <;> cases last
    | closeObject last => rcases last with last | last <;> cases last

/-- A sound text spells its own draft. -/
theorem spells_of_sound {octets : Octets} (sound : Json.syntaxFault? octets = none) :
    Spells octets (Draft.scan octets).draft := by
  intro phase item stack rest stops
  obtain ⟨draft, runs, built⟩ := runs_of_sound sound
  have here : Runs (JsonToken.scan octets) [] phase draft := by
    rcases item with rfl | rfl
    · exact runs
    · exact runs_firstItem runs
  obtain ⟨found, same, within⟩ := build_of_runs here .nil stack (JsonToken.scan rest)
  rw [JsonToken.scan_append octets (isWhole_of_runs runs) stops, Draft.scan, built]
  refine ⟨found, same, fun shallow => within rfl ?_⟩
  simpa using shallow

private theorem spells_scalar {octets : Octets} {token : JsonToken} {draft : Draft}
    (scanned : ∀ rest, Stops rest → JsonToken.scan (octets ++ rest) = token :: JsonToken.scan rest)
    (scalar : Scalar token draft) : Spells octets draft := by
  intro phase item stack rest stops
  refine ⟨draft, ?_, fun shallow => ⟨rfl, ?_⟩⟩
  · rw [scanned rest stops]
    exact build_ends (.scalar item scalar) _
  · rw [scanned rest stops, staysWithin_cons] at shallow
    cases scalar <;> exact shallow.2

theorem spells_null : Spells (Json.ascii "null".toList) .null :=
  spells_scalar (fun rest _ => JsonToken.scan_word .null rest) .null

theorem spells_true : Spells (Json.ascii "true".toList) (.bool true) :=
  spells_scalar (fun rest _ => JsonToken.scan_word .true rest) .true

theorem spells_false : Spells (Json.ascii "false".toList) (.bool false) :=
  spells_scalar (fun rest _ => JsonToken.scan_word .false rest) .false

theorem spells_string (text : String) :
    Spells (Json.stringOctets text) (.string ⟨.ok text, none⟩) := by
  have draft : (QuotedString.ofText text).draft = ⟨.ok text, none⟩ := by
    rw [QuotedString.draft, QuotedString.read_ofText]
    rfl
  rw [← draft]
  exact spells_scalar (fun rest _ => JsonToken.scan_stringOctets text rest) (.string rfl)

theorem spells_numeral {n : Numeral} (wellFormed : n.WellFormed) :
    Spells n.octets (.number n.value) :=
  spells_scalar (fun _ stops => JsonToken.scan_numeral wellFormed stops) (.number n)

theorem stops_of_mark (octet : UInt8) (rest : Octets)
    (other : octet = 0x2C ∨ octet = 0x5D ∨ octet = 0x7D) : Stops (octet :: rest) := by
  rcases other with rfl | rfl | rfl <;> exact ⟨by decide, by decide, by decide, by decide⟩

/-- The items of a list after those that are done, up to its end. -/
private theorem build_items (first : Octets × Draft) (items : List (Octets × Draft))
    (spelled : ∀ item ∈ first :: items, Spells item.1 item.2) (done : List Draft)
    {phase : DraftPhase} (item : phase = .item ∨ phase = .firstItem) (stack : List OpenDraft)
    (rest : Octets) :
    ∃ found, build (.list done :: stack) phase
        (JsonToken.scan (Json.commaSeparated ((first :: items).map Prod.fst) ++ 0x5D :: rest)) =
        finish (nestedIn stack (.list (done.reverse ++ found) .closed)) stack
          (JsonToken.scan rest) ∧
      (staysWithin (stack.length + 1)
          (JsonToken.scan (Json.commaSeparated ((first :: items).map Prod.fst) ++ 0x5D :: rest)) =
          true →
        found = (first :: items).map Prod.snd ∧ stack.length < depthLimit ∧
          staysWithin stack.length (JsonToken.scan rest) = true) := by
  induction items generalizing first done phase with
  | nil =>
    obtain ⟨found, built, equal⟩ := spelled first (by simp) phase item (.list done :: stack)
      (0x5D :: rest) (stops_of_mark _ _ (by simp))
    refine ⟨[found], ?_, fun within => ?_⟩
    · simp only [List.map_cons, List.map_nil, Json.commaSeparated]
      rw [built, finish_placed rfl, JsonToken.scan_closeList, build_ends (.closeList (.inr rfl)),
        List.reverse_cons]
    · obtain ⟨same, within⟩ := equal within
      rw [JsonToken.scan_closeList, staysWithin_cons] at within
      exact ⟨by simp [same], within.1, within.2⟩
  | cons second more ih =>
    obtain ⟨found, built, equal⟩ := spelled first (by simp) phase item (.list done :: stack)
      (0x2C :: (Json.commaSeparated ((second :: more).map Prod.fst) ++ 0x5D :: rest))
      (stops_of_mark _ _ (by simp))
    obtain ⟨others, later, equalLater⟩ :=
      ih second (fun item member => spelled item (by simp [member]))
      (found :: done) (.inl rfl)
    have text : Json.commaSeparated ((first :: second :: more).map Prod.fst) ++ 0x5D :: rest =
        first.1 ++ 0x2C :: (Json.commaSeparated ((second :: more).map Prod.fst) ++ 0x5D :: rest) := by
      simp [Json.commaSeparated]
    rw [text]
    refine ⟨found :: others, ?_, fun within => ?_⟩
    · rw [built, finish_placed rfl, JsonToken.scan_comma, build_move .nextItem, later,
        List.reverse_cons, List.append_assoc]
      rfl
    · obtain ⟨same, within⟩ := equal within
      rw [JsonToken.scan_comma, staysWithin_cons] at within
      obtain ⟨sameOthers, shallow, within⟩ := equalLater within.2
      exact ⟨by rw [same, sameOthers]; rfl, shallow, within⟩

/-- Texts that spell drafts spell a list of them. -/
theorem spells_list (items : List (Octets × Draft))
    (spelled : ∀ item ∈ items, Spells item.1 item.2) :
    Spells (Json.listOctets (items.map Prod.fst)) (.list (items.map Prod.snd) .closed) := by
  intro phase item stack rest stops
  have text : Json.listOctets (items.map Prod.fst) ++ rest =
      0x5B :: (Json.commaSeparated (items.map Prod.fst) ++ 0x5D :: rest) := by
    simp [Json.listOctets]
  rw [text, JsonToken.scan_openList, build_move (.openList item)]
  cases items with
  | nil =>
    refine ⟨nestedIn stack (.list [] .closed), ?_, fun within => ?_⟩
    · rw [List.map_nil, Json.commaSeparated, List.nil_append, JsonToken.scan_closeList,
        build_ends (.closeList (.inl rfl))]
      rfl
    · rw [List.map_nil, Json.commaSeparated, List.nil_append, JsonToken.scan_closeList,
        staysWithin_cons, staysWithin_cons] at within
      exact ⟨nestedIn_eq within.2.1 _, within.2.2⟩
  | cons first more =>
    obtain ⟨found, built, equal⟩ := build_items first more spelled [] (.inr rfl) stack rest
    refine ⟨_, built, fun within => ?_⟩
    rw [staysWithin_cons] at within
    obtain ⟨same, shallow, within⟩ := equal within.2
    exact ⟨by rw [nestedIn_eq shallow, same]; rfl, within⟩

/-- A member of an object that is to be written: its key, its text and what the text spells. -/
structure Member where
  key : String
  octets : Octets
  draft : Draft

namespace Member

/-- The member as it is written. -/
def text (member : Member) : Octets := Json.stringOctets member.key ++ 0x3A :: member.octets

/-- The member as it is read. -/
def read (member : Member) : DraftText × Draft := (⟨.ok member.key, none⟩, member.draft)

end Member

/-- A key and its value, up to what follows the value. -/
private theorem build_member {member : Member} (spelled : Spells member.octets member.draft)
    (done : List (DraftText × Draft)) {phase : DraftPhase} (key : phase = .firstKey ∨ phase = .key)
    (stack : List OpenDraft) {rest : Octets} (stops : Stops rest) :
    ∃ found, build (.object done :: stack) phase (JsonToken.scan (member.text ++ rest)) =
        build (.object ((⟨.ok member.key, none⟩, found) :: done) :: stack) .separator
          (JsonToken.scan rest) ∧
      (staysWithin (stack.length + 1) (JsonToken.scan (member.text ++ rest)) = true →
        found = member.draft ∧ staysWithin (stack.length + 1) (JsonToken.scan rest) = true) := by
  have draft : (QuotedString.ofText member.key).draft = ⟨.ok member.key, none⟩ := by
    rw [QuotedString.draft, QuotedString.read_ofText]
    rfl
  obtain ⟨found, built, equal⟩ := spelled .item (.inl rfl)
    (.member done ⟨.ok member.key, none⟩ :: stack) rest stops
  have text : member.text ++ rest =
      Json.stringOctets member.key ++ 0x3A :: (member.octets ++ rest) := by
    simp [Member.text]
  rw [text, JsonToken.scan_stringOctets, JsonToken.scan_colon]
  refine ⟨found, ?_, fun within => ?_⟩
  · rw [build_move (.key key rfl), build_move .colon, draft, built]
    exact finish_placed rfl _
  · rw [staysWithin_cons, staysWithin_cons] at within
    exact equal within.2.2

/-- The members of an object after those that are done, up to its end. -/
private theorem build_members (first : Member) (members : List Member)
    (spelled : ∀ member ∈ first :: members, Spells member.octets member.draft)
    (done : List (DraftText × Draft)) {phase : DraftPhase}
    (key : phase = .firstKey ∨ phase = .key) (stack : List OpenDraft) (rest : Octets) :
    ∃ found, build (.object done :: stack) phase
        (JsonToken.scan (Json.commaSeparated ((first :: members).map Member.text) ++
          0x7D :: rest)) =
        finish (nestedIn stack (.object (done.reverse ++ found) .closed)) stack
          (JsonToken.scan rest) ∧
      (staysWithin (stack.length + 1)
          (JsonToken.scan (Json.commaSeparated ((first :: members).map Member.text) ++
            0x7D :: rest)) = true →
        found = (first :: members).map Member.read ∧ stack.length < depthLimit ∧
          staysWithin stack.length (JsonToken.scan rest) = true) := by
  induction members generalizing first done phase with
  | nil =>
    obtain ⟨found, built, equal⟩ := build_member (spelled first (by simp)) done key stack
      (stops_of_mark 0x7D rest (by simp))
    refine ⟨[(⟨.ok first.key, none⟩, found)], ?_, fun within => ?_⟩
    · simp only [List.map_cons, List.map_nil, Json.commaSeparated]
      rw [built, JsonToken.scan_closeObject, build_ends (.closeObject (.inr rfl)),
        List.reverse_cons]
    · obtain ⟨same, within⟩ := equal within
      rw [JsonToken.scan_closeObject, staysWithin_cons] at within
      exact ⟨by simp [same, Member.read], within.1, within.2⟩
  | cons second more ih =>
    have text : Json.commaSeparated ((first :: second :: more).map Member.text) ++ 0x7D :: rest =
        first.text ++
          0x2C :: (Json.commaSeparated ((second :: more).map Member.text) ++ 0x7D :: rest) := by
      simp [Json.commaSeparated]
    obtain ⟨found, built, equal⟩ := build_member (spelled first (by simp)) done key stack
      (stops_of_mark 0x2C (Json.commaSeparated ((second :: more).map Member.text) ++ 0x7D :: rest)
        (by simp))
    obtain ⟨others, later, equalLater⟩ :=
      ih second (fun member inMore => spelled member (by simp [inMore]))
        ((⟨.ok first.key, none⟩, found) :: done) (.inr rfl)
    rw [text]
    refine ⟨(⟨.ok first.key, none⟩, found) :: others, ?_, fun within => ?_⟩
    · rw [built, JsonToken.scan_comma, build_move .nextKey, later, List.reverse_cons,
        List.append_assoc]
      rfl
    · obtain ⟨same, within⟩ := equal within
      rw [JsonToken.scan_comma, staysWithin_cons] at within
      obtain ⟨sameOthers, shallow, within⟩ := equalLater within.2
      exact ⟨by rw [same, sameOthers]; rfl, shallow, within⟩

/-- Texts that spell drafts spell an object of them. -/
theorem spells_object (members : List Member)
    (spelled : ∀ member ∈ members, Spells member.octets member.draft) :
    Spells (Json.objectOctets (members.map fun member => (member.key, member.octets)))
      (.object (members.map Member.read) .closed) := by
  intro phase item stack rest stops
  have text : Json.objectOctets (members.map fun member => (member.key, member.octets)) ++ rest =
      0x7B :: (Json.commaSeparated (members.map Member.text) ++ 0x7D :: rest) := by
    simp only [Json.objectOctets, List.map_map, List.cons_append, List.append_assoc]
    rfl
  rw [text, JsonToken.scan_openObject, build_move (.openObject item)]
  cases members with
  | nil =>
    refine ⟨nestedIn stack (.object [] .closed), ?_, fun within => ?_⟩
    · rw [List.map_nil, Json.commaSeparated, List.nil_append, JsonToken.scan_closeObject,
        build_ends (.closeObject (.inl rfl))]
      rfl
    · rw [List.map_nil, Json.commaSeparated, List.nil_append, JsonToken.scan_closeObject,
        staysWithin_cons, staysWithin_cons] at within
      exact ⟨nestedIn_eq within.2.1 _, within.2.2⟩
  | cons first more =>
    obtain ⟨found, built, equal⟩ := build_members first more spelled [] (.inl rfl) stack rest
    refine ⟨_, built, fun within => ?_⟩
    rw [staysWithin_cons] at within
    obtain ⟨same, shallow, within⟩ := equal within.2
    exact ⟨by rw [nestedIn_eq shallow, same]; rfl, within⟩

/-- The whole of a text that spells a draft is sound, and is that draft when it is not nested too
deep. -/
theorem scan_of_spells {octets : Octets} (spelled : Spells octets draft) :
    ∃ found, Draft.scan octets = ⟨found, false, none⟩ ∧
      (staysWithin 0 (JsonToken.scan octets) = true → found = draft) := by
  obtain ⟨found, built, equal⟩ := spelled .item (.inl rfl) [] [] trivial
  rw [List.append_nil] at built equal
  exact ⟨found, built, fun within => (equal within).1⟩

end Spelling

end Columnar.Draft
