import Mathlib.Algebra.Group.Nat.Defs
import Columnar.Binary.Float

/-! Rounding of integers. The place to which a number is rounded keeps its significand below a fixed
bound, so that an integer of 64 bits is far from the largest float. -/
namespace Columnar

theorem roundQuotient_le (numerator denominator : Nat) :
    roundQuotient numerator denominator ≤ numerator / denominator + 1 := by
  unfold roundQuotient
  dsimp only
  split
  · omega
  · split <;> omega

namespace BinaryFormat

/-- A place that is not far below the leading digit leaves few digits before it. -/
private theorem quotient_lt {n : Nat} {place : Int} (near : (n.log2 : Int) - 53 ≤ place) :
    n * Nat.pow 2 (-place).toNat / (1 * Nat.pow 2 place.toNat) < 2 ^ 54 := by
  have below : n < 2 ^ (n.log2 + 1) := Nat.lt_log2_self
  rw [Nat.one_mul, Nat.pow_eq, Nat.pow_eq, Nat.div_lt_iff_lt_mul (Nat.two_pow_pos _), ← Nat.pow_add]
  calc n * 2 ^ (-place).toNat
      < 2 ^ (n.log2 + 1) * 2 ^ (-place).toNat :=
        Nat.mul_lt_mul_of_pos_right below (Nat.two_pow_pos _)
    _ = 2 ^ (n.log2 + 1 + (-place).toNat) := (Nat.pow_add ..).symm
    _ ≤ 2 ^ (54 + place.toNat) := Nat.pow_le_pow_right (by decide) (by omega)

private theorem lastPlace_bounds (n : Nat) :
    (n.log2 : Int) - 53 ≤ double.lastPlace n 1 ∧
      double.lastPlace n 1 ≤ max ((n.log2 : Int) - 52) (-1074) := by
  have least : double.leastExponent = -1074 := by decide
  have one : Nat.log2 1 = 0 := by decide
  have bits : double.fractionBits = 52 := rfl
  unfold lastPlace
  simp only [least, one, bits]
  split <;> omega

/-- An integer of 64 bits is rounded to a number below infinity. -/
theorem roundRatio_lt_infinity {n : Nat} (small : n ≤ 2 ^ 64) :
    double.roundRatio n 1 < double.infinityBits := by
  have infinity : double.infinityBits = 2047 * 2 ^ 52 := by decide
  have least : double.leastExponent = -1074 := by decide
  have bits : double.fractionBits = 52 := rfl
  unfold roundRatio
  split
  · rw [infinity]
    decide
  next positive =>
    have leading : n.log2 < 65 := (Nat.log2_lt positive).2 (by omega)
    obtain ⟨near, low⟩ := lastPlace_bounds n
    have rounded := roundQuotient_le (n * Nat.pow 2 (-double.lastPlace n 1).toNat)
      (1 * Nat.pow 2 (double.lastPlace n 1).toNat)
    have few : roundQuotient (n * Nat.pow 2 (-double.lastPlace n 1).toNat)
        (1 * Nat.pow 2 (double.lastPlace n 1).toNat) ≤ 4 * 2 ^ 52 :=
      Nat.le_trans rounded (quotient_lt near)
    have places : (double.lastPlace n 1 - -1074).toNat ≤ 1086 := by omega
    simp only [twoPower, least, bits, infinity, Nat.pow_eq] at *
    refine Nat.lt_of_le_of_lt (Nat.min_le_left ..) ?_
    calc _ ≤ 1086 * 2 ^ 52 + 4 * 2 ^ 52 := Nat.add_le_add (Nat.mul_le_mul_right _ places) few
      _ < 2047 * 2 ^ 52 := by decide

/-- A pattern below infinity is that of a finite number, with either sign. -/
private theorem field_ne_special {magnitude : Nat} (negative : Bool)
    (below : magnitude < double.infinityBits) :
    double.withSign negative magnitude / Nat.pow 2 double.fractionBits %
      Nat.pow 2 double.exponentBits ≠ double.specialField := by
  have infinity : double.infinityBits = 2047 * 2 ^ 52 := by decide
  have sign : double.signWeight = 2048 * 2 ^ 52 := by decide
  have special : double.specialField = 2047 := by decide
  have fields : Nat.pow 2 double.exponentBits = 2048 := by decide
  have fraction : Nat.pow 2 double.fractionBits = 2 ^ 52 := by decide
  have positive : 0 < 2 ^ 52 := by decide
  rw [infinity, Nat.mul_comm] at below
  have low : magnitude / 2 ^ 52 < 2047 := Nat.div_lt_of_lt_mul below
  rw [withSign, sign, special, fields, fraction]
  cases negative with
  | false =>
    rw [if_neg Bool.false_ne_true]
    omega
  | true =>
    rw [if_pos rfl, Nat.mul_comm, Nat.mul_add_div positive]
    omega

end BinaryFormat

open BinaryFormat in
/-- An integer of 64 bits, with or without sign, is rounded to a finite float. -/
theorem Binary64.isFinite_ofInt {n : Int} (small : n.natAbs ≤ 2 ^ 64) :
    (ofInt n).isFinite = true := by
  have below := roundRatio_lt_infinity small
  have field := field_ne_special (decide (n < 0)) below
  have pattern : (ofInt n).bits.toNat =
      double.withSign (decide (n < 0)) (double.roundRatio n.natAbs 1) := by
    have infinity : double.infinityBits = 2047 * 2 ^ 52 := by decide
    have sign : double.signWeight = 2 ^ 63 := by decide
    have fits : double.withSign (decide (n < 0)) (double.roundRatio n.natAbs 1) < 2 ^ 64 := by
      rw [infinity] at below
      rw [withSign, sign]
      split <;> omega
    rw [ofInt, ofRatio, ofPattern, Nat.toUInt64_eq, UInt64.toNat_ofNat', Nat.mod_eq_of_lt fits]
  rw [isFinite, classify, pattern, BinaryFormat.classify, if_neg field]
  split
  next same => rfl
  next other =>
    split at other <;> exact absurd rfl (other _ _ _)

end Columnar
