import Mathlib.Algebra.Group.Nat.Defs
import Columnar.Proofs.Collections
import Columnar.Proofs.Text.Digits
import Columnar.Proofs.Text.Pieces
import Columnar.Proofs.Time.Calendar
import Columnar.Proofs.Time.Counts
import Columnar.Time.Rfc3339

/-! Times that are written as texts. Every part of a time has a width of its own, so that reading finds
the parts again one after the other; a time of a year with four digits is read back to the nanosecond, a
leap second as a leap second, and no other time is read back at all. -/
namespace Columnar

section Digits

variable {width n : Nat} {c : Char}

theorem printed_of_isDigit (digit : c.isDigit = true) : Text.Printed c := by
  obtain ⟨low, high⟩ := digit_bounds digit
  exact ⟨by omega, by omega⟩

theorem isDigit_of_mem_padded (member : c ∈ paddedDigits width n) : c.isDigit = true := by
  rcases List.mem_append.1 member with zeros | digits
  · rw [(List.mem_replicate.1 zeros).2]
    rfl
  · exact isDigit_of_mem_digits digits

theorem length_paddedDigits (some : 0 < width) (small : n < 10 ^ width) :
    (paddedDigits width n).length = width := by
  have fits : (Nat.toDigits 10 n).length ≤ width :=
    (Nat.length_toDigits_le_iff (by decide) some).2 small
  rw [paddedDigits, List.length_append, List.length_replicate, Nat.sub_add_cancel fits]

theorem ofDigitChars_paddedDigits (width n : Nat) :
    Nat.ofDigitChars 10 (paddedDigits width n) 0 = n := by
  rw [paddedDigits, Nat.ofDigitChars_append, Nat.ofDigitChars_replicate_zero, Nat.mul_zero,
    Nat.ofDigitChars_ten_toDigits]

end Digits

/-- A fraction is nothing, or a point and so many digits that nothing is lost. -/
theorem Instant.fractionChars_cases (nano : Nat) :
    (nano = 0 ∧ fractionChars nano = []) ∨ ∃ width shown, 0 < width ∧ width ≤ 9 ∧
      shown * 10 ^ (9 - width) = nano ∧ fractionChars nano = '.' :: paddedDigits width shown := by
  rw [fractionChars]
  split
  next none => exact .inl ⟨none, rfl⟩
  next =>
    right
    split
    next millis => exact ⟨3, nano / 1000000, by decide, by decide, by omega, rfl⟩
    next =>
      split
      next micros => exact ⟨6, nano / 1000, by decide, by decide, by omega, rfl⟩
      next => exact ⟨9, nano, by decide, by decide, Nat.mul_one nano, rfl⟩

namespace Rfc3339

variable {width n low high : Nat}

/-- The octets of a number with leading zeros. -/
def padded (width n : Nat) : Octets := Json.ascii (paddedDigits width n)

theorem length_padded (some : 0 < width) (small : n < 10 ^ width) :
    (padded width n).length = width := by
  rw [padded, Json.ascii, List.length_map, length_paddedDigits some small]

theorem isDigit_padded (width n : Nat) : (padded width n).all Octets.isDigit = true :=
  all_isDigit_ascii fun _ => isDigit_of_mem_padded

theorem foldl_padded (width n : Nat) :
    (padded width n).foldl (fun n octet => n * 10 + Octets.digitValue octet) 0 = n := by
  rw [padded, foldl_ascii fun _ => isDigit_of_mem_padded]
  exact ofDigitChars_paddedDigits width n

theorem number_padded (some : 0 < width) (small : n < 10 ^ width) (rest : Octets) :
    number width (padded width n ++ rest) = .ok (n, rest) := by
  have length := length_padded some small
  have enough : ¬(padded width n ++ rest).length < width := by
    rw [List.length_append, length]
    omega
  rw [number, if_neg enough, List.take_left' length, List.drop_left' length]
  dsimp only
  rw [isDigit_padded, if_pos rfl, foldl_padded]

theorem numberWithin_padded (some : 0 < width) (small : n < 10 ^ width)
    (within : low ≤ n ∧ n ≤ high) (rest : Octets) :
    numberWithin width low high (padded width n ++ rest) = .ok (n, rest) := by
  rw [numberWithin, number_padded some small]
  exact if_pos within

/-- Digits after the point, up to the ninth, say a number of nanoseconds. -/
theorem fraction_padded (some : 0 < width) (most : width ≤ 9) (small : n < 10 ^ width)
    (rest : Octets) :
    fraction (padded width n ++ 0x5A :: rest) = .ok (n * 10 ^ (9 - width), 0x5A :: rest) := by
  have length := length_padded some small
  have digits := isDigit_padded width n
  have stop : (0x5A :: rest : Octets).head?.all (fun octet => !Octets.isDigit octet) = true := rfl
  have stopEarly : ((0x5A :: rest : Octets).take (9 - width)).head?.all
      (fun octet => !Octets.isDigit octet) = true := by
    cases 9 - width <;> rfl
  have taken : (padded width n ++ 0x5A :: rest).take 9 =
      padded width n ++ (0x5A :: rest : Octets).take (9 - width) := by
    rw [List.take_append, length, List.take_of_length_le (Nat.le_trans (Nat.le_of_eq length) most)]
  obtain ⟨first, later, shape⟩ := List.exists_cons_of_length_pos (length.symm ▸ some)
  have begins : Octets.isDigit first = true := by
    rw [shape, List.all_cons, Bool.and_eq_true] at digits
    exact digits.1
  rw [fraction.eq_def, taken, (Octets.takeWhile_digits _ digits stopEarly).1,
    (Octets.takeWhile_digits _ digits stop).2]
  dsimp only
  rw [foldl_padded, length, shape, List.cons_append]
  dsimp only
  rw [begins]
  rfl

/-- However many digits the fraction is written with, it is read back to the nanosecond. -/
theorem optionalFraction_written {nano : Nat} (short : nano < nanosPerSecond) (rest : Octets) :
    optionalFraction (Json.ascii (Instant.fractionChars nano) ++ 0x5A :: rest) =
      .ok (nano, 0x5A :: rest) := by
  rcases Instant.fractionChars_cases nano with ⟨none, chars⟩ | ⟨width, shown, some, most, exact, chars⟩
  · rw [chars, none]
    rfl
  · have small : shown < 10 ^ width := by
      have total : 10 ^ width * 10 ^ (9 - width) = nanosPerSecond := by
        rw [← Nat.pow_add, Nat.add_sub_cancel' most]
        rfl
      rw [← exact, ← total] at short
      exact Nat.lt_of_mul_lt_mul_right short
    rw [chars, ← exact]
    exact fraction_padded some most small rest

/-- What stands in a text for a time: its parts one after the other, each with its own width. -/
theorem read_parts {year month day hour minute second nano : Nat} {t : Instant}
    (years : year ≤ 9999) (months : 1 ≤ month ∧ month ≤ 12) (days : 1 ≤ day ∧ day ≤ 31)
    (hours : hour ≤ 23) (minutes : minute ≤ 59) (seconds : second ≤ 60)
    (short : nano < nanosPerSecond) (valid : Date.isValid ⟨year, month, day⟩ = true)
    (parts : Instant.ofParts?
      (Date.toDay ⟨year, month, day⟩ * 86400 +
        (hour * 3600 + minute * 60 + (if second = 60 then 59 else second) : Nat))
      (if second = 60 then nano + nanosPerSecond else nano) = some t) :
    read (padded 4 year ++ 0x2D :: (padded 2 month ++ 0x2D :: (padded 2 day ++ 0x54 ::
      (padded 2 hour ++ 0x3A :: (padded 2 minute ++ 0x3A :: (padded 2 second ++
        (Json.ascii (Instant.fractionChars nano) ++ [0x5A]))))))) = .ok t := by
  have mark (choices : List UInt8) (octet : UInt8) (rest : Octets)
      (chosen : choices.contains octet = true) : oneOf choices (octet :: rest) = .ok ((), rest) :=
    if_pos chosen
  refine bind_eq_ok_iff.2 ⟨_, number_padded (by decide) (by omega) _, ?_⟩
  refine bind_eq_ok_iff.2 ⟨_, mark _ _ _ rfl, ?_⟩
  refine bind_eq_ok_iff.2 ⟨_, numberWithin_padded (by decide) (by omega) months _, ?_⟩
  refine bind_eq_ok_iff.2 ⟨_, mark _ _ _ rfl, ?_⟩
  refine bind_eq_ok_iff.2 ⟨_, numberWithin_padded (by decide) (by omega) days _, ?_⟩
  refine bind_eq_ok_iff.2 ⟨_, mark _ _ _ rfl, ?_⟩
  refine bind_eq_ok_iff.2 ⟨_, numberWithin_padded (by decide) (by omega) ⟨by omega, hours⟩ _, ?_⟩
  refine bind_eq_ok_iff.2 ⟨_, mark _ _ _ rfl, ?_⟩
  refine bind_eq_ok_iff.2 ⟨_, numberWithin_padded (by decide) (by omega) ⟨by omega, minutes⟩ _, ?_⟩
  refine bind_eq_ok_iff.2 ⟨_, mark _ _ _ rfl, ?_⟩
  refine bind_eq_ok_iff.2 ⟨_, numberWithin_padded (by decide) (by omega) ⟨by omega, seconds⟩ _, ?_⟩
  refine bind_eq_ok_iff.2 ⟨_, optionalFraction_written short [], ?_⟩
  refine bind_eq_ok_iff.2 ⟨(0, []), rfl, ?_⟩
  dsimp only
  rw [List.isEmpty_nil, valid, Int.sub_zero, parts]
  rfl

end Rfc3339

namespace Instant

theorem printed_of_mem_yearChars {year : Int} {c : Char} (member : c ∈ yearChars year) :
    Text.Printed c := by
  rw [yearChars] at member
  split at member
  · exact printed_of_isDigit (isDigit_of_mem_padded member)
  · rcases List.mem_cons.1 member with rfl | digit
    · split <;> decide
    · exact printed_of_isDigit (isDigit_of_mem_padded digit)

theorem printed_of_mem_fractionChars {nano : Nat} {c : Char} (member : c ∈ fractionChars nano) :
    Text.Printed c := by
  rcases fractionChars_cases nano with ⟨-, chars⟩ | ⟨width, shown, -, -, -, chars⟩
  · rw [chars] at member
    cases member
  · rw [chars] at member
    rcases List.mem_cons.1 member with rfl | digit
    · decide
    · exact printed_of_isDigit (isDigit_of_mem_padded digit)

/-- There are only digits, marks and two letters in the text of a time. -/
theorem printed_of_mem_rfc3339 (t : Instant) : ∀ c ∈ t.rfc3339.toList, Text.Printed c := by
  have digits (width n : Nat) : ∀ c ∈ paddedDigits width n, Text.Printed c :=
    fun _ member => printed_of_isDigit (isDigit_of_mem_padded member)
  have year : ∀ c ∈ yearChars t.date.year, Text.Printed c := fun _ => printed_of_mem_yearChars
  have fraction (nano : Nat) : ∀ c ∈ fractionChars nano, Text.Printed c :=
    fun _ => printed_of_mem_fractionChars
  rw [rfc3339, String.toList_ofList, dateChars, clockChars]
  simp only [List.forall_mem_append, List.forall_mem_cons, and_assoc]
  exact ⟨year, by decide, digits _ _, by decide, digits _ _, by decide, digits _ _, by decide,
    digits _ _, by decide, digits _ _, fraction _, by decide, nofun⟩

theorem ofString_rfc3339 (t : Instant) :
    Octets.ofString t.rfc3339 = Json.ascii (dateChars t.date ++ 'T' :: t.clockChars ++ ['Z']) := by
  refine Octets.ofString_ascii fun c member => ?_
  have printed := t.printed_of_mem_rfc3339 c (by rwa [rfc3339, String.toList_ofList])
  exact Nat.lt_trans printed.2 (by decide)

/-- The octets of a time that is written with a year of four digits. -/
theorem ofString_rfc3339_unsigned {t : Instant} (first : 0 ≤ t.date.year)
    (last : t.date.year ≤ 9999) :
    Octets.ofString t.rfc3339 = Rfc3339.padded 4 t.date.year.toNat ++ 0x2D ::
      (Rfc3339.padded 2 t.date.month ++ 0x2D :: (Rfc3339.padded 2 t.date.day ++ 0x54 ::
      (Rfc3339.padded 2 (t.secondOfDay / 3600) ++ 0x3A ::
      (Rfc3339.padded 2 (t.secondOfDay / 60 % 60) ++ 0x3A ::
      (Rfc3339.padded 2 (t.secondOfDay % 60 + if nanosPerSecond ≤ t.nano then 1 else 0) ++
      (Json.ascii (fractionChars (if nanosPerSecond ≤ t.nano then t.nano - nanosPerSecond
        else t.nano)) ++ [0x5A])))))) := by
  rw [ofString_rfc3339, dateChars, yearChars, if_pos ⟨first, last⟩, clockChars]
  simp only [Json.ascii, Rfc3339.padded, List.map_append, List.map_cons, List.map_nil,
    List.append_assoc, List.cons_append]
  rfl

/-- A time of a year with four digits is read back as it is. -/
theorem read_rfc3339 {t : Instant} (first : 0 ≤ t.date.year) (last : t.date.year ≤ 9999) :
    Rfc3339.read (Octets.ofString t.rfc3339) = .ok t := by
  obtain ⟨valid, day⟩ := Date.ofDay_spec (t.second / 86400)
  rw [← date] at valid day
  have same : (⟨(t.date.year.toNat : Int), t.date.month, t.date.day⟩ : Date) = t.date := by
    rw [Int.toNat_of_nonneg first]
  obtain ⟨⟨months, someDay⟩, lastDay⟩ : ((1 ≤ t.date.month ∧ t.date.month ≤ 12) ∧
      1 ≤ t.date.day) ∧ t.date.day ≤ Calendar.daysInMonth t.date.year t.date.month := by
    simpa only [Date.isValid, Bool.and_eq_true, decide_eq_true_eq] using valid
  have days : 1 ≤ t.date.day ∧ t.date.day ≤ 31 :=
    ⟨someDay, Nat.le_trans lastDay (Calendar.daysInMonth_le ..)⟩
  have bound := t.nano_lt
  have minuteEnd := t.leap_at_minute_end
  have clock : t.secondOfDay = (t.second % 86400).toNat := rfl
  rw [nanosPerSecond] at bound minuteEnd
  rw [ofString_rfc3339_unsigned first last, nanosPerSecond]
  -- A leap second is written as second 60 and counts as the second before it.
  by_cases leap : 1000000000 ≤ t.nano
  · have late := minuteEnd leap
    rw [if_pos leap, if_pos leap]
    refine Rfc3339.read_parts (by omega) months days (by omega) (by omega) (by omega)
      (by rw [nanosPerSecond]; omega) (same ▸ valid) ?_
    have second : t.second / 86400 * 86400 + (t.secondOfDay / 3600 * 3600 +
        t.secondOfDay / 60 % 60 * 60 + 59 : Nat) = t.second := by
      omega
    rw [same, day, if_pos (by omega), if_pos (by omega), second, nanosPerSecond,
      Nat.sub_add_cancel leap, ofParts?_parts]
  · rw [if_neg leap, if_neg leap]
    refine Rfc3339.read_parts (by omega) months days (by omega) (by omega) (by omega)
      (by rw [nanosPerSecond]; omega) (same ▸ valid) ?_
    have second : t.second / 86400 * 86400 + (t.secondOfDay / 3600 * 3600 +
        t.secondOfDay / 60 % 60 * 60 + (t.secondOfDay % 60 + 0) : Nat) = t.second := by
      omega
    rw [same, day, if_neg (by omega), if_neg (by omega), second, ofParts?_parts]

/-- A year of more digits, or one before the year 0, is written with a sign, and no time that is
read begins with a sign. -/
theorem read_rfc3339_signed {t : Instant} (far : ¬(0 ≤ t.date.year ∧ t.date.year ≤ 9999)) :
    ∃ fault, Rfc3339.read (Octets.ofString t.rfc3339) = .error fault := by
  obtain ⟨octet, rest, signed, noDigit⟩ : ∃ octet rest,
      Octets.ofString t.rfc3339 = octet :: rest ∧ Octets.isDigit octet = false := by
    rw [ofString_rfc3339, dateChars, yearChars, if_neg far]
    refine ⟨_, _, rfl, ?_⟩
    split <;> rfl
  obtain ⟨fault, failed⟩ : ∃ fault, Rfc3339.number 4 (octet :: rest) = .error fault := by
    rw [Rfc3339.number]
    split
    · exact ⟨_, rfl⟩
    · dsimp only
      rw [List.take_succ_cons, List.all_cons, noDigit]
      exact ⟨_, rfl⟩
  refine ⟨fault, ?_⟩
  rw [signed, Rfc3339.read, failed]
  rfl

end Instant

end Columnar
