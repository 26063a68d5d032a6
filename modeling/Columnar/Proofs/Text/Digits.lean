import Columnar.Json.Value
import Columnar.Proofs.Text.Octets

/-! Digits as characters and as octets. A text of ASCII characters has one octet for each of them, and
the number that digits say is the same in both forms. -/
namespace Columnar

theorem digit_bounds {c : Char} (digit : c.isDigit = true) :
    48 ≤ c.toNat ∧ c.toNat ≤ 57 := by
  simp only [Char.isDigit, Bool.and_eq_true, decide_eq_true_eq, ge_iff_le] at digit
  exact ⟨UInt32.le_iff_toNat_le.1 digit.1, UInt32.le_iff_toNat_le.1 digit.2⟩

theorem isDigit_ascii {c : Char} (digit : c.isDigit = true) :
    Octets.isDigit c.toNat.toUInt8 = true := by
  obtain ⟨low, high⟩ := digit_bounds digit
  simp only [Octets.isDigit, Bool.and_eq_true, decide_eq_true_eq, UInt8.le_iff_toNat_le,
    UInt8.toNat_ofNat, Nat.toUInt8_eq, UInt8.toNat_ofNat']
  omega

theorem all_isDigit_ascii {chars : List Char} (digits : ∀ c ∈ chars, c.isDigit = true) :
    (Json.ascii chars).all Octets.isDigit = true := by
  simp only [Json.ascii, List.all_map, List.all_eq_true, Function.comp]
  intro c member
  exact isDigit_ascii (digits c member)

theorem digitValue_ascii {c : Char} (digit : c.isDigit = true) :
    Octets.digitValue c.toNat.toUInt8 = c.toNat - 48 := by
  obtain ⟨low, high⟩ := digit_bounds digit
  simp only [Octets.digitValue, Nat.toUInt8_eq, UInt8.toNat_ofNat']
  omega

theorem isDigit_of_mem_digits {n : Nat} {c : Char} (member : c ∈ Nat.toDigits 10 n) :
    c.isDigit = true :=
  Nat.isDigit_of_mem_toDigits (by decide) (by decide) member

theorem foldl_ascii {chars : List Char} (digits : ∀ c ∈ chars, c.isDigit = true) (start : Nat) :
    (Json.ascii chars).foldl (fun n octet => n * 10 + Octets.digitValue octet) start =
      Nat.ofDigitChars 10 chars start := by
  induction chars generalizing start with
  | nil => rfl
  | cons c rest ih =>
    rw [List.forall_mem_cons] at digits
    rw [Nat.ofDigitChars_cons, ← ih digits.2, Nat.mul_comm 10]
    change List.foldl _ (start * 10 + Octets.digitValue c.toNat.toUInt8) _ = _
    rw [digitValue_ascii digits.1]
    rfl

namespace Octets

theorem ofString_ascii {chars : List Char} (small : ∀ c ∈ chars, c.toNat < 0x80) :
    ofString (String.ofList chars) = Json.ascii chars := by
  rw [ofString_eq, String.toList_ofList]
  induction chars with
  | nil => rfl
  | cons c rest ih =>
    rw [List.forall_mem_cons] at small
    have single : String.utf8EncodeChar c = [c.toNat.toUInt8] := by
      have fits : c.val.toNat ≤ 127 := Nat.le_of_lt_succ small.1
      rw [String.utf8EncodeChar, if_pos fits]
      rfl
    rw [List.flatMap_cons, single, ih small.2]
    rfl

/-- A run of digits ends where something else follows. -/
theorem takeWhile_digits (digits : Octets) {tail : Octets} (all : digits.all isDigit = true)
    (stop : tail.head?.all (fun octet => !isDigit octet) = true) :
    (digits ++ tail).takeWhile isDigit = digits ∧ (digits ++ tail).dropWhile isDigit = tail := by
  have none : tail.takeWhile isDigit = [] ∧ tail.dropWhile isDigit = tail := by
    cases tail with
    | nil => exact ⟨rfl, rfl⟩
    | cons octet rest =>
      have off : isDigit octet = false := by simpa using stop
      simp [off]
  have every : ∀ octet ∈ digits, isDigit octet = true := List.all_eq_true.1 all
  rw [List.takeWhile_append_of_pos every, List.dropWhile_append_of_pos every, none.1, none.2]
  simp

end Octets

end Columnar
