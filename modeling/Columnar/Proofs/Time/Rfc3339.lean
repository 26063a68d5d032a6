import Mathlib.Algebra.Group.Nat.Defs
import Columnar.Proofs.Collections
import Columnar.Proofs.Time.Calendar
import Columnar.Proofs.Time.Counts
import Columnar.Time.Rfc3339

/-! Times that are read from texts. A year has four digits there, so that a time which is read lies
far before the last one there is, and its milliseconds stand for a time even if it is a leap
second. -/
namespace Columnar

namespace Rfc3339

private theorem foldl_digits_lt {digits : Octets} (all : digits.all Octets.isDigit = true)
    (start : Nat) : digits.foldl (fun n octet => n * 10 + Octets.digitValue octet) start <
      (start + 1) * 10 ^ digits.length := by
  induction digits generalizing start with
  | nil => simp
  | cons digit rest ih =>
    rw [List.all_cons, Bool.and_eq_true] at all
    have small : Octets.digitValue digit ≤ 9 := by
      have bounds := all.1
      rw [Octets.isDigit, Bool.and_eq_true, decide_eq_true_eq, decide_eq_true_eq] at bounds
      have most : digit.toNat ≤ 0x39 := bounds.2
      rw [Octets.digitValue]
      omega
    rw [List.foldl_cons, List.length_cons, Nat.pow_succ', ← Nat.mul_assoc]
    refine Nat.lt_of_lt_of_le (ih all.2 _) (Nat.mul_le_mul_right _ ?_)
    omega

theorem number_lt {width n : Nat} {octets rest : Octets}
    (read : number width octets = .ok (n, rest)) : n < 10 ^ width := by
  unfold number at read
  split at read
  · cases read
  next enough =>
    dsimp only at read
    split at read
    next all =>
      cases read
      have below := foldl_digits_lt all 0
      rwa [List.length_take, Nat.min_eq_left (Nat.le_of_not_lt enough), Nat.one_mul] at below
    · cases read

theorem le_of_numberWithin {width low high n : Nat} {octets rest : Octets}
    (read : numberWithin width low high octets = .ok (n, rest)) : n ≤ high := by
  obtain ⟨⟨found, _⟩, -, read⟩ := bind_eq_ok_iff.1 read
  dsimp only at read
  split at read
  next within =>
    cases read
    exact within.2
  · cases read

theorem offset_bounds {seconds : Int} {octets rest : Octets}
    (read : offset octets = .ok (seconds, rest)) : -86400 < seconds ∧ seconds < 86400 := by
  unfold offset at read
  split at read
  · cases read
    omega
  · cases read
    omega
  · obtain ⟨⟨negative, _⟩, -, read⟩ := bind_eq_ok_iff.1 read
    obtain ⟨⟨hours, _⟩, -, read⟩ := bind_eq_ok_iff.1 read
    obtain ⟨⟨⟨⟩, _⟩, -, read⟩ := bind_eq_ok_iff.1 read
    obtain ⟨⟨minutes, _⟩, -, read⟩ := bind_eq_ok_iff.1 read
    dsimp only at read
    split at read
    · cases read
    · split at read
      · cases read
      · cases read
        cases negative <;> simp <;> omega

end Rfc3339

namespace Date

open Calendar

/-- A date of a year with four digits lies within so many days. -/
theorem toDay_le {date : Date} (first : 0 ≤ date.year) (last : date.year ≤ 9999)
    (valid : date.isValid = true) : date.toDay ≤ 3000000 := by
  have taken : ∀ (leap : Bool), ∀ months < 12,
      totalDays ((monthLengths leap).take months) ≤ 366 := by decide
  obtain ⟨year, month, day⟩ := date
  simp only [isValid, Bool.and_eq_true, decide_eq_true_eq] at valid
  obtain ⟨⟨⟨-, lastMonth⟩, -⟩, lastDay⟩ := valid
  have short := daysInMonth_le year month
  have before := taken (isLeapYear year) (month - 1) (by omega)
  have epoch : epochDay = 719528 := by decide
  rw [toDay, epoch, daysBeforeYear]
  dsimp only at *
  omega

end Date

namespace Rfc3339

/-- A time that is read from a text lies before the last second there is. -/
theorem second_lt_of_read {octets : Octets} {t : Instant} (ran : read octets = .ok t) :
    t.second < latestSecond := by
  obtain ⟨⟨year, _⟩, yearRead, ran⟩ := bind_eq_ok_iff.1 ran
  obtain ⟨⟨⟨⟩, _⟩, -, ran⟩ := bind_eq_ok_iff.1 ran
  obtain ⟨⟨month, _⟩, -, ran⟩ := bind_eq_ok_iff.1 ran
  obtain ⟨⟨⟨⟩, _⟩, -, ran⟩ := bind_eq_ok_iff.1 ran
  obtain ⟨⟨day, _⟩, -, ran⟩ := bind_eq_ok_iff.1 ran
  obtain ⟨⟨⟨⟩, _⟩, -, ran⟩ := bind_eq_ok_iff.1 ran
  obtain ⟨⟨hour, _⟩, hourRead, ran⟩ := bind_eq_ok_iff.1 ran
  obtain ⟨⟨⟨⟩, _⟩, -, ran⟩ := bind_eq_ok_iff.1 ran
  obtain ⟨⟨minute, _⟩, minuteRead, ran⟩ := bind_eq_ok_iff.1 ran
  obtain ⟨⟨⟨⟩, _⟩, -, ran⟩ := bind_eq_ok_iff.1 ran
  obtain ⟨⟨second, _⟩, secondRead, ran⟩ := bind_eq_ok_iff.1 ran
  obtain ⟨⟨nano, _⟩, -, ran⟩ := bind_eq_ok_iff.1 ran
  obtain ⟨⟨seconds, _⟩, offsetRead, ran⟩ := bind_eq_ok_iff.1 ran
  dsimp only at ran
  split at ran
  · cases ran
  · split at ran
    · cases ran
    next valid =>
      split at ran
      next found parts =>
        cases ran
        have yearBound := number_lt yearRead
        have hourBound := le_of_numberWithin hourRead
        have minuteBound := le_of_numberWithin minuteRead
        have secondBound := le_of_numberWithin secondRead
        have offsetBound := offset_bounds offsetRead
        have fourDigits : (year : Int) ≤ 9999 := by omega
        rw [Bool.not_eq_true', Bool.not_eq_false] at valid
        have days := Date.toDay_le (Int.natCast_nonneg year) fourDigits valid
        have clock : hour * 3600 + minute * 60 + (if second = 60 then 59 else second) ≤ 86400 := by
          split <;> omega
        rw [(Instant.parts_of_ofParts? parts).1, latestSecond]
        omega
      · cases ran

end Rfc3339

end Columnar
