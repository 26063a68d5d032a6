import Columnar.Proofs.Json.Telling

/-! How deep values are nested. A reader goes no deeper than a limit; the text of a value is within
the limit when the value is, and is then read as what it says. -/
namespace Columnar

/-- No more lists and objects are open at once in the text than the reader goes deep. -/
def Draft.Shallow (octets : Octets) : Prop := staysWithin 0 (JsonToken.scan octets) = true

instance (octets : Octets) : Decidable (Draft.Shallow octets) :=
  inferInstanceAs (Decidable (Draft.staysWithin 0 (JsonToken.scan octets) = true))

namespace Json

mutual

/-- How many lists and objects of the value stand inside one another. -/
def depth : Json → Nat
  | list items => itemDepth items + 1
  | object members => memberDepth members + 1
  | _ => 0

def itemDepth : List Json → Nat
  | [] => 0
  | item :: rest => max item.depth (itemDepth rest)

def memberDepth : List (String × Json) → Nat
  | [] => 0
  | (_, value) :: rest => max value.depth (memberDepth rest)

end

end Json

namespace Draft

variable {level : Nat} {token : JsonToken} {tokens : List JsonToken}

/-- What a token that opens and closes nothing does to the depth. -/
private theorem staysWithin_flat (flat : levelAfter level token = level) (fits : level ≤ depthLimit)
    (later : staysWithin level tokens = true) : staysWithin level (token :: tokens) = true := by
  rw [staysWithin_cons, flat]
  exact ⟨fits, later⟩

private theorem staysWithin_close (closes : levelAfter (level + 1) token = level)
    (fits : level + 1 ≤ depthLimit) (later : staysWithin level tokens = true) :
    staysWithin (level + 1) (token :: tokens) = true := by
  rw [staysWithin_cons, closes]
  exact ⟨fits, later⟩

/-- The text of a value may stand inside so many lists and objects, whatever follows it. -/
def Stays (level : Nat) (octets : Octets) : Prop :=
  ∀ rest, Numeral.Stops rest → staysWithin level (JsonToken.scan rest) = true →
    staysWithin level (JsonToken.scan (octets ++ rest)) = true

theorem stays_word (word : JsonWord) (fits : level ≤ depthLimit) :
    Stays level (JsonToken.wordOctets word) := by
  intro rest _ later
  rw [JsonToken.scan_word]
  exact staysWithin_flat rfl fits later

theorem stays_string (text : String) (fits : level ≤ depthLimit) :
    Stays level (Json.stringOctets text) := by
  intro rest _ later
  rw [JsonToken.scan_stringOctets]
  exact staysWithin_flat rfl fits later

theorem stays_numeral {n : Numeral} (wellFormed : n.WellFormed) (fits : level ≤ depthLimit) :
    Stays level n.octets := by
  intro rest stops later
  rw [JsonToken.scan_numeral wellFormed stops]
  exact staysWithin_flat rfl fits later

/-- Texts one after the other with commas between them. -/
private theorem staysWithin_parts {parts : List Octets} (fits : level ≤ depthLimit)
    (all : ∀ part ∈ parts, Stays level part) {rest : Octets} (stops : Numeral.Stops rest)
    (later : staysWithin level (JsonToken.scan rest) = true) :
    staysWithin level (JsonToken.scan (Json.commaSeparated parts ++ rest)) = true := by
  induction parts with
  | nil => exact later
  | cons first others ih =>
    rw [List.forall_mem_cons] at all
    cases others with
    | nil => exact all.1 rest stops later
    | cons second more =>
      have text : Json.commaSeparated (first :: second :: more) ++ rest =
          first ++ 0x2C :: (Json.commaSeparated (second :: more) ++ rest) := by
        simp [Json.commaSeparated]
      rw [text]
      refine all.1 _ (stops_of_mark _ _ (by simp)) ?_
      rw [JsonToken.scan_comma]
      exact staysWithin_flat rfl fits (ih all.2)

/-- The text of a list may stand where its items may stand one level deeper. -/
theorem stays_list {items : List Octets} (fits : level < depthLimit)
    (all : ∀ item ∈ items, Stays (level + 1) item) : Stays level (Json.listOctets items) := by
  intro rest stops later
  have text : Json.listOctets items ++ rest =
      0x5B :: (Json.commaSeparated items ++ 0x5D :: rest) := by
    simp [Json.listOctets]
  have close : staysWithin (level + 1) (JsonToken.scan (0x5D :: rest)) = true := by
    rw [JsonToken.scan_closeList]
    exact staysWithin_close rfl fits later
  rw [text, JsonToken.scan_openList, staysWithin_cons]
  exact ⟨Nat.le_of_lt fits, staysWithin_parts fits all (stops_of_mark _ _ (by simp)) close⟩

/-- The text of an object may stand where the values of its members may stand one level deeper. -/
theorem stays_object {members : List (String × Octets)} (fits : level < depthLimit)
    (all : ∀ member ∈ members, Stays (level + 1) member.2) :
    Stays level (Json.objectOctets members) := by
  intro rest stops later
  let parts := members.map fun member => Json.stringOctets member.1 ++ 0x3A :: member.2
  have text : Json.objectOctets members ++ rest =
      0x7B :: (Json.commaSeparated parts ++ 0x7D :: rest) := by
    simp [Json.objectOctets, parts]
  have each : ∀ part ∈ parts, Stays (level + 1) part := by
    intro part member
    obtain ⟨⟨key, value⟩, listed, rfl⟩ := List.mem_map.1 member
    intro rest stops later
    rw [List.append_assoc, JsonToken.scan_stringOctets, List.cons_append, JsonToken.scan_colon]
    exact staysWithin_flat rfl fits (staysWithin_flat rfl fits (all _ listed rest stops later))
  have close : staysWithin (level + 1) (JsonToken.scan (0x7D :: rest)) = true := by
    rw [JsonToken.scan_closeObject]
    exact staysWithin_close rfl fits later
  rw [text, JsonToken.scan_openObject, staysWithin_cons]
  exact ⟨Nat.le_of_lt fits, staysWithin_parts fits each (stops_of_mark _ _ (by simp)) close⟩

theorem shallow_of_stays {octets : Octets} (stays : Stays 0 octets) : Shallow octets := by
  have within := stays [] trivial rfl
  rwa [List.append_nil] at within

end Draft

namespace Json

mutual

/-- The text of a value is no deeper than the value. -/
theorem stays_octets (value : Json) {level : Nat} (fits : level + value.depth ≤ Draft.depthLimit) :
    Draft.Stays level value.octets := by
  have here : level ≤ Draft.depthLimit := by omega
  cases value with
  | null => exact Draft.stays_word .null here
  | bool b =>
    cases b with
    | true => exact Draft.stays_word .true here
    | false => exact Draft.stays_word .false here
  | number n =>
    obtain ⟨numeral, wellFormed, spelled⟩ := n.exists_numeral
    rw [octets, spelled]
    exact Draft.stays_numeral wellFormed here
  | string s => exact Draft.stays_string s here
  | list items =>
    rw [depth] at fits
    exact Draft.stays_list (by omega) (stays_items items (by omega))
  | object members =>
    rw [depth] at fits
    exact Draft.stays_object (by omega) (stays_members members (by omega))

private theorem stays_items (items : List Json) {level : Nat}
    (fits : level + itemDepth items ≤ Draft.depthLimit) :
    ∀ part ∈ itemOctets items, Draft.Stays level part := by
  cases items with
  | nil => exact List.forall_mem_nil _
  | cons item rest =>
    rw [itemDepth] at fits
    exact List.forall_mem_cons.2
      ⟨item.stays_octets (by omega), stays_items rest (by omega)⟩

private theorem stays_members (members : List (String × Json)) {level : Nat}
    (fits : level + memberDepth members ≤ Draft.depthLimit) :
    ∀ member ∈ memberOctets members, Draft.Stays level member.2 := by
  cases members with
  | nil => exact List.forall_mem_nil _
  | cons member rest =>
    obtain ⟨key, value⟩ := member
    rw [memberDepth] at fits
    exact List.forall_mem_cons.2
      ⟨value.stays_octets (by omega), stays_members rest (by omega)⟩

end

theorem shallow_octets {value : Json} (shallow : value.depth ≤ Draft.depthLimit) :
    Draft.Shallow value.octets :=
  Draft.shallow_of_stays (value.stays_octets (by omega))

/-- The text of the value is read as it was written: it is not too deep, and the reader of numbers
returns the numbers that were written. -/
structure Legible (value : Json) : Prop where
  shallow : value.depth ≤ Draft.depthLimit
  numbers : ∀ number ∈ value.numbers, number.ReadsBack

/-- The draft of the text of a value tells the value. -/
theorem scan_octets {value : Json} (legible : value.Legible) :
    ∃ draft, Draft.scan value.octets = ⟨draft, false, none⟩ ∧ value.ToldBy draft := by
  obtain ⟨found, scanned, same⟩ := Draft.scan_of_spells value.spells
  refine ⟨found, scanned, ?_⟩
  rw [same (shallow_octets legible.shallow)]
  exact value.toldBy_writtenDraft legible.numbers

end Json

end Columnar
