import Columnar.Proofs.Json.Numbers
import Columnar.Proofs.Text.Octets

/-! The text of a value is text: whatever characters its strings have, its octets are the form of a
string. -/
namespace Columnar

open Octets (IsText isText_nil isText_append isText_cons)

private theorem isText_small {octets : Octets} (small : ∀ octet ∈ octets, octet < 0x80) :
    IsText octets := by
  induction octets with
  | nil => exact isText_nil
  | cons octet rest ih =>
    have later := ih fun other member => small other (by simp [member])
    exact isText_cons (small octet (by simp)) later

private theorem isText_digits {digits : Octets} (all : digits.all Octets.isDigit = true) :
    IsText digits := by
  apply isText_small
  intro octet member
  have digit := List.all_eq_true.1 all octet member
  rw [Octets.isDigit, Bool.and_eq_true, decide_eq_true_eq, decide_eq_true_eq] at digit
  exact Nat.lt_of_le_of_lt digit.2 (by decide)

theorem Numeral.isText_octets {n : Numeral} (wellFormed : n.WellFormed) : IsText n.octets := by
  have sign : IsText (signOctets n.negative) := by
    cases n.negative with
    | true => exact isText_cons (by decide) isText_nil
    | false => exact isText_nil
  refine isText_append (isText_append (isText_append sign (isText_digits wellFormed.whole)) ?_) ?_
  · cases fraction : n.fraction with
    | none => exact isText_nil
    | some digits =>
      exact isText_cons (by decide) (isText_digits (wellFormed.fraction digits fraction).1)
  · cases exponent : n.exponent with
    | none => exact isText_nil
    | some power =>
      obtain ⟨down, digits⟩ := power
      have all := isText_digits (wellFormed.exponent down digits exponent).1
      exact isText_cons (by decide) (isText_cons (by cases down <;> decide) all)

namespace Json

private theorem isText_ascii {chars : List Char}
    (small : (chars.all fun c => decide (c.toNat < 0x80)) = true) : IsText (ascii chars) := by
  apply isText_small
  intro octet member
  obtain ⟨c, inChars, rfl⟩ := List.mem_map.1 member
  have bound := of_decide_eq_true (List.all_eq_true.1 small c inChars)
  rw [UInt8.lt_iff_toNat_lt, Nat.toUInt8_eq, UInt8.toNat_ofNat']
  have fits : c.toNat % 2 ^ 8 = c.toNat := Nat.mod_eq_of_lt (by omega)
  rw [fits]
  exact bound

private theorem isText_escapeChar (c : Char) : IsText (escapeChar c) := by
  have digit : ∀ n < 16, (Nat.digitChar n).toNat < 0x80 := by decide
  unfold escapeChar
  iterate 7
    split
    · exact isText_ascii (by decide)
  split
  next control =>
    have high := digit (c.toNat / 16) (by omega)
    have low := digit (c.toNat % 16) (by omega)
    exact isText_ascii (by simp [high, low])
  next => simpa using Octets.isText_chars [c]

theorem isText_stringOctets (s : String) : IsText (stringOctets s) := by
  have escaped : IsText (s.toList.flatMap escapeChar) :=
    Octets.isText_flatMap fun c _ => isText_escapeChar c
  have quote : IsText [0x22] := isText_cons (by decide) isText_nil
  exact isText_cons (by decide) (isText_append escaped quote)

private theorem isText_commaSeparated {parts : List Octets} (all : ∀ part ∈ parts, IsText part) :
    IsText (commaSeparated parts) := by
  induction parts with
  | nil => exact isText_nil
  | cons first rest ih =>
    have later := ih fun part member => all part (by simp [member])
    cases rest with
    | nil => exact all first (by simp)
    | cons second more =>
      exact isText_append (all first (by simp)) (isText_cons (by decide) later)

mutual

theorem isText_octets (value : Json) : IsText value.octets := by
  cases value with
  | null => exact isText_ascii (by decide)
  | bool b => cases b <;> exact isText_ascii (by decide)
  | number n =>
    obtain ⟨numeral, wellFormed, spelled⟩ := n.exists_numeral
    rw [octets, spelled]
    exact Numeral.isText_octets wellFormed
  | string s => exact isText_stringOctets s
  | list items =>
    have inside := isText_commaSeparated (isText_itemOctets items)
    exact isText_cons (by decide) (isText_append inside (isText_cons (by decide) isText_nil))
  | object members =>
    have inside := isText_commaSeparated (isText_memberOctets members)
    exact isText_cons (by decide) (isText_append inside (isText_cons (by decide) isText_nil))

private theorem isText_itemOctets (items : List Json) :
    ∀ part ∈ itemOctets items, IsText part := by
  cases items with
  | nil => exact nofun
  | cons item rest =>
    intro part member
    rcases List.mem_cons.1 member with rfl | member
    · exact item.isText_octets
    · exact isText_itemOctets rest part member

private theorem isText_memberOctets (members : List (String × Json)) :
    ∀ part ∈ (memberOctets members).map fun (key, value) => stringOctets key ++ 0x3A :: value,
      IsText part := by
  cases members with
  | nil => exact nofun
  | cons member rest =>
    obtain ⟨key, value⟩ := member
    intro part inMembers
    rcases List.mem_cons.1 inMembers with rfl | inMembers
    · exact isText_append (isText_stringOctets key) (isText_cons (by decide) value.isText_octets)
    · exact isText_memberOctets rest part inMembers

end

/-- Nothing is lost when the text of a value is kept as a string. -/
theorem ofString_text (value : Json) : Octets.ofString value.text = value.octets :=
  Octets.ofString_toText value.isText_octets

end Json

end Columnar
