import Columnar.Json.Value
import Columnar.Proofs.Json.Numerals
import Columnar.Proofs.Text.Digits

/-! Every number is written as a numeral, floats as well as integers: digits stand where digits are
due, and no digit but a single zero stands before the point of a small number. An integer that fits
64 bits is read back as itself. -/
namespace Columnar

open Numeral (WellFormed)

section Digits

/-- The digits of a positive number do not begin with a zero. -/
theorem head_digits_ne_zero {n : Nat} (positive : 0 < n) :
    (Nat.toDigits 10 n).head? ≠ some '0' := by
  induction n using Nat.strongRecOn with
  | ind n ih =>
    rw [Nat.toDigits_eq_if (by decide)]
    split
    next small =>
      have each : ∀ digit < 10, 0 < digit → [Nat.digitChar digit].head? ≠ some '0' := by decide
      exact each n small positive
    next large =>
      have kept := ih (n / 10) (by omega) (by omega)
      cases first : Nat.toDigits 10 (n / 10) with
      | nil => exact absurd first Nat.toDigits_ne_nil
      | cons c rest => simpa [first] using kept

/-- Digits that stay below the limit all go into the coefficient. -/
private theorem takeWhole_ascii {chars : List Char} (digits : ∀ c ∈ chars, c.isDigit = true)
    {before : Nat} (small : Nat.ofDigitChars 10 chars before < Numeral.coefficientLimit) :
    Numeral.takeWhole before (Json.ascii chars) = (Nat.ofDigitChars 10 chars before, 0) := by
  induction chars generalizing before with
  | nil => rfl
  | cons c rest ih =>
    have here : c.isDigit = true := digits c (by simp)
    rw [Nat.ofDigitChars_cons] at small ⊢
    have next : before * 10 + Octets.digitValue c.toNat.toUInt8 =
        10 * before + (c.toNat - '0'.toNat) := by
      rw [digitValue_ascii here, Nat.mul_comm]
      rfl
    have grows : 10 * before + (c.toNat - '0'.toNat) ≤
        Nat.ofDigitChars 10 rest (10 * before + (c.toNat - '0'.toNat)) := by
      rw [Nat.ofDigitChars_eq_ofDigitChars_zero]
      exact Nat.le_add_right_of_le (Nat.le_mul_of_pos_left _ (Nat.pow_pos (by decide)))
    have below := Nat.lt_of_le_of_lt grows small
    simp only [Json.ascii, List.map_cons, Numeral.takeWhole, next, below, if_true]
    exact ih (fun c member => digits c (by simp [member])) small

end Digits

section Integers

/-- The numeral of an integer. -/
def Numeral.ofInt (n : Int) : Numeral :=
  ⟨decide (n < 0), Json.ascii (Nat.toDigits 10 n.natAbs), none, none⟩

theorem ascii_integerChars (n : Int) : Json.ascii (integerChars n) = (Numeral.ofInt n).octets := by
  by_cases negative : n < 0
  · simp [integerChars, Numeral.octets, Numeral.signOctets, Numeral.ofInt, negative, Json.ascii]
  · simp [integerChars, Numeral.octets, Numeral.signOctets, Numeral.ofInt, negative, Json.ascii]

private theorem ascii_noLeadingZero {chars : List Char} (head : chars.head? ≠ some '0')
    (digits : ∀ c ∈ chars, c.isDigit = true) : (Json.ascii chars).head? ≠ some 0x30 := by
  cases chars with
  | nil => simp [Json.ascii]
  | cons c rest =>
    have different : c ≠ '0' := by simpa using head
    have high := (digit_bounds (digits c (by simp))).2
    intro zero
    simp only [Json.ascii, List.map_cons, List.head?_cons, Option.some.injEq] at zero
    have code : c.toNat = 48 := by
      have same := congrArg UInt8.toNat zero
      simp only [Nat.toUInt8_eq, UInt8.toNat_ofNat', UInt8.toNat_ofNat] at same
      omega
    exact different (Char.ext (UInt32.toNat_inj.1 code))

theorem wellFormed_ofInt (n : Int) : (Numeral.ofInt n).WellFormed where
  whole := all_isDigit_ascii fun _ => isDigit_of_mem_digits
  wholeSome := by simp [Numeral.ofInt, Json.ascii, Nat.toDigits_ne_nil]
  noLeadingZero := by
    intro zero
    rcases Nat.eq_zero_or_pos n.natAbs with none | positive
    · simp [Numeral.ofInt, none, Json.ascii]
    · exact absurd zero (ascii_noLeadingZero (head_digits_ne_zero positive)
        fun _ => isDigit_of_mem_digits)
  fraction := by simp [Numeral.ofInt]
  exponent := by simp [Numeral.ofInt]

/-- An integer of 64 bits is read as itself. -/
theorem value_ofInt {n : Int} (inRange : -0x8000000000000000 ≤ n ∧ n < 0x10000000000000000) :
    (Numeral.ofInt n).value = .ok (.whole n inRange) := by
  have small : Nat.ofDigitChars 10 (Nat.toDigits 10 n.natAbs) 0 < Numeral.coefficientLimit := by
    rw [Nat.ofDigitChars_ten_toDigits]
    simp only [Numeral.coefficientLimit]
    omega
  have whole := takeWhole_ascii (fun _ => isDigit_of_mem_digits) small
  rw [Nat.ofDigitChars_ten_toDigits] at whole
  simp only [Numeral.value, Numeral.ofInt, whole, Option.getD_none, Numeral.takeFraction]
  have signed : (if decide (n < 0) = true then -(n.natAbs : Int) else (n.natAbs : Int)) = n := by
    by_cases negative : n < 0
    · simp only [negative, decide_true, if_true]; omega
    · simp only [negative, decide_false, Bool.false_eq_true, if_false]; omega
  have notMinusZero : ¬(decide (n < 0) = true ∧ n.natAbs = 0) := by
    simp only [decide_eq_true_eq]; omega
  rw [if_neg (by simp), if_neg notMinusZero, signed, JsonNumber.ofInt?, dif_pos inRange]

end Integers

section Floats

variable {format : BinaryFormat}

/-- A grid point that rounds to a positive float is not zero. -/
private theorem holds_pos {interval : RoundingInterval} {place : Int} {count : Nat}
    (low : 0 < interval.low) (holds : interval.holds place count = true) : count ≠ 0 := by
  rintro rfl
  have scale : 0 < (interval.gridStep place).2 :=
    Nat.mul_pos (Nat.pow_pos (by decide)) (Nat.pow_pos (by decide))
  have product := Nat.mul_pos low scale
  simp only [RoundingInterval.holds, Nat.zero_mul] at holds
  split at holds
  · simp only [Bool.and_eq_true, decide_eq_true_eq] at holds
    omega
  · simp at holds

private theorem stepsBelow_le_nearer (interval : RoundingInterval) (tie : TieRule) (place : Int) :
    interval.stepsBelow place ≤ interval.nearer tie place := by
  unfold RoundingInterval.nearer
  dsimp only
  split
  · exact Nat.le_refl _
  · split
    · exact Nat.le_succ _
    · cases tie with
      | toEven => exact Nat.le_add_right _ _
      | upward => exact Nat.le_succ _

private theorem onGrid_pos {interval : RoundingInterval} {tie : TieRule} {place : Int}
    {count : Nat} (low : 0 < interval.low) (found : interval.onGrid? tie place = some count) :
    count ≠ 0 := by
  unfold RoundingInterval.onGrid? at found
  dsimp only at found
  split at found
  next below above =>
    cases found
    have first := holds_pos low below
    have least := stepsBelow_le_nearer interval tie place
    omega
  next below above => cases found; exact holds_pos low below
  next below above => cases found; exact holds_pos low above
  next => simp at found

/-- A decimal found on a coarse grid has digits; only on the last grid may there be none. -/
private theorem search_pos {interval : RoundingInterval} {tie : TieRule} {bottom : Int}
    (low : 0 < interval.low) (least : bottom ≤ 0) (steps : Nat)
    (coarse : 0 < (interval.search tie bottom steps).exponent) :
    (interval.search tie bottom steps).coefficient ≠ 0 := by
  induction steps with
  | zero => simp only [RoundingInterval.search] at coarse; omega
  | succ steps ih =>
    simp only [RoundingInterval.search] at coarse ⊢
    split at coarse
    next count found => simpa [found] using onGrid_pos low found
    next missed => simpa [missed] using ih coarse

private theorem shortest_pos {tie : TieRule} {significand : Nat} {exponent : Int}
    (positive : significand ≠ 0)
    (coarse : 0 < (Decimal.shortest format tie significand exponent).exponent) :
    (Decimal.shortest format tie significand exponent).coefficient ≠ 0 := by
  refine search_pos ?_ (by omega) _ coarse
  simp only [RoundingInterval.around]
  split <;> omega

/-- The whole part has digits and no needless zero in front, and both parts are digits. -/
private theorem positional_digits {d : Decimal} (some : 0 < d.exponent → d.coefficient ≠ 0) :
    (∀ c ∈ d.positional.1, c.isDigit = true) ∧ (∀ c ∈ d.positional.2, c.isDigit = true) ∧
      d.positional.1 ≠ [] ∧ (d.positional.1.head? = .some '0' → d.positional.1 = ['0']) := by
  have digit : ∀ c ∈ d.digits, c.isDigit = true := fun _ => isDigit_of_mem_digits
  have nonempty : d.digits ≠ [] := Nat.toDigits_ne_nil
  have leading : 0 < d.coefficient → ∃ c rest, d.digits = c :: rest ∧ c ≠ '0' := by
    intro positive
    cases spelled : d.digits with
    | nil => exact absurd spelled nonempty
    | cons c rest =>
      have head := head_digits_ne_zero positive
      rw [Decimal.digits] at spelled
      exact ⟨c, rest, rfl, by simpa [spelled] using head⟩
  have zero : ∀ {n : Nat} {c : Char}, c ∈ List.replicate n '0' → c.isDigit = true := by
    intro n c member
    rw [List.eq_of_mem_replicate member]
    rfl
  unfold Decimal.positional
  dsimp only
  split
  next whole =>
    refine ⟨?_, by simp, by simp [nonempty], ?_⟩
    · intro c member
      rcases List.mem_append.1 member with here | there
      · exact digit c here
      · exact zero there
    · intro head
      rcases Nat.eq_zero_or_pos d.coefficient with none | positive
      · have flat : d.exponent = 0 := by
          rcases Int.lt_or_eq_of_le whole with large | same
          · exact absurd none (some large)
          · exact same.symm
        simp [Decimal.digits, none, flat]
      · obtain ⟨c, rest, spelled, notZero⟩ := leading positive
        exact absurd head (by simpa [spelled] using notZero)
  next fractional =>
    split
    next inside =>
      refine ⟨fun c member => digit c (List.mem_of_mem_take member),
        fun c member => digit c (List.mem_of_mem_drop member), ?_, ?_⟩
      · simp only [ne_eq, List.take_eq_nil_iff, not_or]
        exact ⟨by omega, nonempty⟩
      · intro head
        rcases Nat.eq_zero_or_pos d.coefficient with none | positive
        · simp only [Decimal.digits, none, Nat.toDigits_zero, List.length_singleton] at inside
          omega
        · obtain ⟨c, rest, spelled, notZero⟩ := leading positive
          have taken : d.digits.length - (-d.exponent).toNat ≠ 0 := by omega
          obtain ⟨count, same⟩ := Nat.exists_eq_succ_of_ne_zero taken
          rw [same, spelled] at head
          exact absurd head (by simpa using notZero)
    next outside =>
      refine ⟨by simp [Char.isDigit], ?_, by simp, by simp⟩
      intro c member
      rcases List.mem_append.1 member with here | there
      · exact zero here
      · exact digit c there

/-- A numeral from the characters of its parts; an empty fraction has no point. -/
private def numeralOf (negative : Bool) (whole fraction : List Char)
    (power : Option (Bool × List Char)) : Numeral where
  negative := negative
  whole := Json.ascii whole
  fraction := if fraction = [] then none else some (Json.ascii fraction)
  exponent := power.map fun (down, digits) => (down, Json.ascii digits)

private theorem wellFormed_numeralOf {negative : Bool} {whole fraction : List Char}
    {power : Option (Bool × List Char)} (digits : ∀ c ∈ whole, c.isDigit = true)
    (some : whole ≠ []) (leading : whole.head? = .some '0' → whole = ['0'])
    (places : ∀ c ∈ fraction, c.isDigit = true)
    (exponent : ∀ down digits, power = .some (down, digits) →
      (∀ c ∈ digits, c.isDigit = true) ∧ digits ≠ []) :
    (numeralOf negative whole fraction power).WellFormed where
  whole := all_isDigit_ascii digits
  wholeSome := by simpa [numeralOf, Json.ascii] using some
  noLeadingZero := by
    intro zero
    by_cases head : whole.head? = .some '0'
    · simp [numeralOf, leading head, Json.ascii]
    · exact absurd zero (ascii_noLeadingZero head digits)
  fraction := by
    intro found same
    simp only [numeralOf] at same
    split at same
    · simp at same
    next nonempty =>
      cases same
      exact ⟨all_isDigit_ascii places, by simpa [Json.ascii] using nonempty⟩
  exponent := by
    intro down found same
    simp only [numeralOf, Option.map_eq_some_iff] at same
    obtain ⟨⟨down, digits⟩, written, same⟩ := same
    obtain ⟨each, nonempty⟩ := exponent down digits written
    cases same
    exact ⟨all_isDigit_ascii each, by simpa [Json.ascii] using nonempty⟩

/-- A number without an exponent is a numeral. -/
private theorem exists_numeral_positional (marksWhole negative : Bool) {d : Decimal}
    (some : 0 < d.exponent → d.coefficient ≠ 0) :
    ∃ n : Numeral, n.WellFormed ∧ n.octets = Numeral.signOctets negative ++
      Json.ascii (match d.positional with
        | (whole, []) => if marksWhole then whole ++ ['.', '0'] else whole
        | (whole, fraction) => whole ++ '.' :: fraction) := by
  obtain ⟨whole, fraction, nonempty, leading⟩ := positional_digits some
  cases parts : d.positional with
  | mk digits places =>
    rw [parts] at whole fraction nonempty leading
    cases places with
    | nil =>
      cases marksWhole with
      | true =>
        refine ⟨numeralOf negative digits ['0'] none,
          wellFormed_numeralOf whole nonempty leading (by simp [Char.isDigit]) (by simp), ?_⟩
        simp [Numeral.octets, Numeral.signOctets, numeralOf, Json.ascii]
      | false =>
        refine ⟨numeralOf negative digits [] none,
          wellFormed_numeralOf whole nonempty leading (by simp) (by simp), ?_⟩
        simp [Numeral.octets, Numeral.signOctets, numeralOf, Json.ascii]
    | cons place places =>
      refine ⟨numeralOf negative digits (place :: places) none,
        wellFormed_numeralOf whole nonempty leading fraction (by simp), ?_⟩
      simp [Numeral.octets, Numeral.signOctets, numeralOf, Json.ascii]

/-- A number with an exponent is a numeral. -/
private theorem exists_numeral_scientific (negative : Bool) (d : Decimal) :
    ∃ n : Numeral, n.WellFormed ∧ n.octets = Numeral.signOctets negative ++
      Json.ascii d.scientific := by
  have digit : ∀ c ∈ d.digits, c.isDigit = true := fun _ => isDigit_of_mem_digits
  cases spelled : d.digits with
  | nil => exact absurd spelled Nat.toDigits_ne_nil
  | cons first fraction =>
    rw [spelled] at digit
    refine ⟨numeralOf negative [first] fraction (.some (decide (d.leadingPlace < 0),
      Nat.toDigits 10 d.leadingPlace.natAbs)), wellFormed_numeralOf ?_ (by simp) (by simp)
        (fun c member => digit c (by simp [member])) ?_, ?_⟩
    · simpa using digit first (by simp)
    · intro down digits same
      cases same
      exact ⟨fun _ => isDigit_of_mem_digits, Nat.toDigits_ne_nil⟩
    · unfold Decimal.scientific
      rw [spelled]
      by_cases down : d.leadingPlace < 0 <;> cases fraction <;>
        simp [Numeral.octets, Numeral.signOctets, numeralOf, Json.ascii, down]

private theorem exists_numeral_magnitude (layout : NumberLayout) (format : BinaryFormat)
    (negative : Bool) (significand : Nat) (exponent : Int) :
    ∃ n : Numeral, n.WellFormed ∧ n.octets = Numeral.signOctets negative ++
      Json.ascii (layout.magnitude format significand exponent) := by
  unfold NumberLayout.magnitude
  dsimp only
  generalize written : (if significand = 0 then (⟨0, 0⟩ : Decimal)
    else Decimal.shortest format layout.tie significand exponent) = decimal
  have some : 0 < decimal.exponent → decimal.coefficient ≠ 0 := by
    subst written
    split
    · simp
    next positive => exact shortest_pos positive
  by_cases positional : significand = 0 ∨ layout.isPositional decimal.leadingPlace
  · rw [if_pos positional]
    exact exists_numeral_positional layout.marksWhole negative some
  · rw [if_neg positional]
    exact exists_numeral_scientific negative decimal

/-- The text of a float is that of a numeral, in every layout. -/
theorem exists_numeral_write (layout : NumberLayout) (format : BinaryFormat) (negative : Bool)
    (significand : Nat) (exponent : Int) :
    ∃ n : Numeral, n.WellFormed ∧
      Json.ascii (layout.write format (.finite negative significand exponent)) = n.octets := by
  obtain ⟨n, wellFormed, spelled⟩ :=
    exists_numeral_magnitude layout format negative significand exponent
  refine ⟨n, wellFormed, ?_⟩
  rw [spelled]
  cases negative <;> rfl

/-- Every number of a document is written as a numeral. -/
theorem JsonNumber.exists_numeral (number : JsonNumber) :
    ∃ n : Numeral, n.WellFormed ∧ Json.ascii number.chars = n.octets := by
  cases number with
  | whole n inRange => exact ⟨_, wellFormed_ofInt n, ascii_integerChars n⟩
  | real x finite =>
    unfold Binary64.isFinite at finite
    split at finite
    next negative significand exponent same =>
      simp only [JsonNumber.chars, same]
      exact exists_numeral_write _ _ _ _ _
    next => simp at finite

end Floats

end Columnar
