import Columnar.Json.Numeral
import Columnar.Proofs.Text.Digits

/-! Numerals between their neighbours. A numeral in the text of a document ends where a number can
no longer go on, so that what follows it decides nothing; the text of every number that a document
can hold is such a numeral, and that of an integer is read as the integer. -/
namespace Columnar.Numeral

open Octets (isDigit takeWhile_digits)

/-- What may stand after a number without becoming part of it. -/
def Stops : Octets → Prop
  | [] => True
  | octet :: _ => isDigit octet = false ∧ octet ≠ 0x2E ∧ octet ≠ 0x65 ∧ octet ≠ 0x45

/-- The sign before the digits; only a minus is written. -/
def signOctets (negative : Bool) : Octets := if negative then [0x2D] else []

/-- The text of a numeral: a plus sign stands before an exponent that is not negative. -/
def octets (n : Numeral) : Octets :=
  signOctets n.negative ++ n.whole
    ++ (match n.fraction with
      | none => []
      | some digits => 0x2E :: digits)
    ++ (match n.exponent with
      | none => []
      | some (down, digits) => 0x65 :: (if down then 0x2D else 0x2B) :: digits)

/-- Digits wherever digits are due, and no zero in front of other whole digits. -/
structure WellFormed (n : Numeral) : Prop where
  whole : n.whole.all isDigit = true
  wholeSome : n.whole ≠ []
  noLeadingZero : n.whole.head? = some 0x30 → n.whole = [0x30]
  fraction : ∀ digits, n.fraction = some digits → digits.all isDigit = true ∧ digits ≠ []
  exponent : ∀ down digits, n.exponent = some (down, digits) →
    digits.all isDigit = true ∧ digits ≠ []

section Scanning

private theorem stops_digit {tail : Octets} (stops : Stops tail) :
    tail.head?.all (fun octet => !isDigit octet) = true := by
  cases tail with
  | nil => rfl
  | cons octet rest => simp [stops.1]

/-- A run of digits that has ended within a text ends there whatever is added to the text. -/
private theorem digits_append (octets : Octets) {tail : Octets}
    (stop : octets.dropWhile isDigit = [] → Stops tail) :
    (octets ++ tail).takeWhile isDigit = octets.takeWhile isDigit ∧
      (octets ++ tail).dropWhile isDigit = octets.dropWhile isDigit ++ tail := by
  induction octets with
  | nil => exact takeWhile_digits [] rfl (stops_digit (stop rfl))
  | cons octet rest ih =>
    by_cases digit : isDigit octet
    · simp only [List.dropWhile_cons, digit, if_true] at stop
      simp [digit, ih stop]
    · simp [digit]

/-- The scan of an exponent whose sign has been taken off. -/
private def scanPower (negative : Bool) (whole : List UInt8) (fraction : Option (List UInt8))
    (down : Bool) : Octets → NumberScan × Octets
  | [] => (.broken .endInValue .invalidNumber, [])
  | first :: rest =>
    if isDigit first then
      (.numeral ⟨negative, whole, fraction, some (down, (first :: rest).takeWhile isDigit)⟩,
        (first :: rest).dropWhile isDigit)
    else (.broken .invalidNumber .invalidNumber, [])

section Parts

variable {negative : Bool} {whole : List UInt8} {fraction : Option (List UInt8)}
variable {octets rest tail : Octets} {n : Numeral}

private theorem scanExponent_plus :
    scanExponent negative whole fraction (0x2B :: octets) =
      scanPower negative whole fraction false octets := by
  cases octets <;> rfl

private theorem scanExponent_minus :
    scanExponent negative whole fraction (0x2D :: octets) =
      scanPower negative whole fraction true octets := by
  cases octets <;> rfl

private theorem scanExponent_bare {sign : UInt8} (plus : sign ≠ 0x2B) (minus : sign ≠ 0x2D) :
    scanExponent negative whole fraction (sign :: octets) =
      scanPower negative whole fraction false (sign :: octets) := by
  unfold scanExponent
  split
  next first more same =>
    split at same
    next head => exact absurd (List.cons.inj head).1 plus
    next head => exact absurd (List.cons.inj head).1 minus
    next => cases same; rfl

private theorem scanPower_append {down : Bool}
    (found : scanPower negative whole fraction down octets = (.numeral n, rest))
    (stop : rest = [] → Stops tail) :
    scanPower negative whole fraction down (octets ++ tail) = (.numeral n, rest ++ tail) := by
  cases octets with
  | nil => simp [scanPower] at found
  | cons first more =>
    simp only [scanPower, List.cons_append] at found ⊢
    split at found
    next digit =>
      obtain ⟨rfl, rfl⟩ : _ ∧ _ := by
        simpa only [Prod.mk.injEq, NumberScan.numeral.injEq] using found
      obtain ⟨taken, left⟩ := digits_append (first :: more) stop
      simp only [List.cons_append] at taken left
      rw [if_pos digit, taken, left]
    next => simp at found

private theorem scanExponent_append
    (found : scanExponent negative whole fraction octets = (.numeral n, rest))
    (stop : rest = [] → Stops tail) :
    scanExponent negative whole fraction (octets ++ tail) = (.numeral n, rest ++ tail) := by
  cases octets with
  | nil => simp [scanExponent] at found
  | cons sign more =>
    by_cases plus : sign = 0x2B
    · subst plus
      rw [scanExponent_plus] at found
      exact scanExponent_plus.trans (scanPower_append found stop)
    · by_cases minus : sign = 0x2D
      · subst minus
        rw [scanExponent_minus] at found
        exact scanExponent_minus.trans (scanPower_append found stop)
      · rw [scanExponent_bare plus minus] at found
        exact (scanExponent_bare plus minus).trans (scanPower_append found stop)

private theorem scanTail_append
    (found : scanTail negative whole fraction octets = (.numeral n, rest))
    (stop : rest = [] → Stops tail) :
    scanTail negative whole fraction (octets ++ tail) = (.numeral n, rest ++ tail) := by
  cases octets with
  | nil =>
    simp only [scanTail, Prod.mk.injEq, NumberScan.numeral.injEq] at found
    obtain ⟨rfl, rfl⟩ := found
    cases tail with
    | nil => simp [scanTail]
    | cons octet more =>
      obtain ⟨_, _, lower, upper⟩ := stop rfl
      simp [scanTail, lower, upper]
  | cons octet octets =>
    simp only [scanTail, List.cons_append] at found ⊢
    split at found
    next letter =>
      rw [if_pos letter]
      exact scanExponent_append found stop
    next other =>
      rw [if_neg other]
      simp only [Prod.mk.injEq, NumberScan.numeral.injEq] at found
      obtain ⟨rfl, rfl⟩ := found
      simp

/-- Digits that reach the end of the text leave nothing for what follows them. -/
private theorem scanTail_atEnd (found : scanTail negative whole fraction octets = (.numeral n, rest))
    (none : octets = []) : rest = [] := by
  subst none
  simp only [scanTail, Prod.mk.injEq] at found
  exact found.2.symm

private theorem scanFraction_append
    (found : scanFraction negative whole octets = (.numeral n, rest))
    (stop : rest = [] → Stops tail) :
    scanFraction negative whole (octets ++ tail) = (.numeral n, rest ++ tail) := by
  cases octets with
  | nil => simp [scanFraction] at found
  | cons first more =>
    simp only [scanFraction, List.cons_append] at found ⊢
    split at found
    next digit =>
      obtain ⟨taken, left⟩ := digits_append (first :: more)
        fun none => stop (scanTail_atEnd found none)
      simp only [List.cons_append] at taken left
      rw [if_pos digit, taken, left]
      exact scanTail_append found stop
    next => simp at found

private theorem scanAfterWhole_bare {octet : UInt8} (point : octet ≠ 0x2E) :
    scanAfterWhole negative whole (octet :: octets) =
      scanTail negative whole none (octet :: octets) := by
  unfold scanAfterWhole
  split
  next head => exact absurd (List.cons.inj head).1 point
  next => rfl

private theorem scanAfterWhole_append
    (found : scanAfterWhole negative whole octets = (.numeral n, rest))
    (stop : rest = [] → Stops tail) :
    scanAfterWhole negative whole (octets ++ tail) = (.numeral n, rest ++ tail) := by
  cases octets with
  | nil =>
    have ended : scanTail negative whole none [] = (.numeral n, rest) := found
    have atEnd : rest = [] := scanTail_atEnd ended rfl
    have kept := scanTail_append ended stop
    cases tail with
    | nil => exact kept
    | cons octet more =>
      obtain ⟨_, point, _⟩ := stop atEnd
      simpa [scanAfterWhole, point] using kept
  | cons octet octets =>
    by_cases point : octet = 0x2E
    · subst point
      have inside : scanFraction negative whole octets = (.numeral n, rest) := found
      exact scanFraction_append inside stop
    · rw [scanAfterWhole_bare point] at found
      exact (scanAfterWhole_bare point).trans (scanTail_append found stop)

private theorem scanSize_append
    (found : scanSize negative octets = (.numeral n, rest)) (stop : rest = [] → Stops tail) :
    scanSize negative (octets ++ tail) = (.numeral n, rest ++ tail) := by
  cases octets with
  | nil => simp [scanSize] at found
  | cons first more =>
    simp only [scanSize, List.cons_append] at found ⊢
    by_cases zero : first = 0x30
    · rw [if_pos zero] at found ⊢
      cases more with
      | nil =>
        have ended : scanTail negative [first] none [] = (.numeral n, rest) := found
        have atEnd : rest = [] := scanTail_atEnd ended rfl
        have kept := scanTail_append ended stop
        cases tail with
        | nil => exact kept
        | cons next tail =>
          obtain ⟨digit, point, _⟩ := stop atEnd
          simpa [digit, scanAfterWhole_bare point] using kept
      | cons next more =>
        simp only [List.cons_append] at found ⊢
        split at found
        next => simp at found
        next other =>
          rw [if_neg other]
          exact scanAfterWhole_append found stop
    · rw [if_neg zero] at found ⊢
      split at found
      next digit =>
        have ends : more.dropWhile isDigit = [] → Stops tail := by
          intro all
          rw [all] at found
          have ended : scanTail negative _ none [] = (.numeral n, rest) := found
          exact stop (scanTail_atEnd ended rfl)
        obtain ⟨taken, left⟩ := digits_append more ends
        rw [if_pos digit, taken, left]
        exact scanAfterWhole_append found stop
      next => simp at found

private theorem scan_bare {sign : UInt8} (minus : sign ≠ 0x2D) :
    scan (sign :: octets) = scanSize false (sign :: octets) := by
  unfold scan
  split
  next head => exact absurd (List.cons.inj head).1 minus
  next => rfl

/-- Reading a numeral goes no further when more text follows that cannot be part of it. -/
theorem scan_append (found : scan octets = (.numeral n, rest)) (stop : rest = [] → Stops tail) :
    scan (octets ++ tail) = (.numeral n, rest ++ tail) := by
  cases octets with
  | nil => simp [scan, scanSize] at found
  | cons sign more =>
    by_cases minus : sign = 0x2D
    · subst minus
      have unsigned : scanSize true more = (.numeral n, rest) := found
      exact scanSize_append unsigned stop
    · rw [scan_bare minus] at found
      exact (scan_bare minus).trans (scanSize_append found stop)

private theorem dropWhile_le : (octets.dropWhile isDigit).length ≤ octets.length :=
  (List.dropWhile_sublist _).length_le

private theorem scanPower_le {down : Bool} :
    (scanPower negative whole fraction down octets).2.length ≤ octets.length := by
  cases octets with
  | nil => simp [scanPower]
  | cons first more =>
    simp only [scanPower]
    split
    · exact dropWhile_le
    · simp

private theorem scanExponent_le :
    (scanExponent negative whole fraction octets).2.length ≤ octets.length := by
  cases octets with
  | nil => simp [scanExponent]
  | cons sign more =>
    by_cases plus : sign = 0x2B
    · subst plus
      rw [scanExponent_plus]
      exact Nat.le_succ_of_le scanPower_le
    · by_cases minus : sign = 0x2D
      · subst minus
        rw [scanExponent_minus]
        exact Nat.le_succ_of_le scanPower_le
      · rw [scanExponent_bare plus minus]
        exact scanPower_le

private theorem scanTail_le :
    (scanTail negative whole fraction octets).2.length ≤ octets.length := by
  cases octets with
  | nil => simp [scanTail]
  | cons octet more =>
    simp only [scanTail]
    split
    · exact Nat.le_succ_of_le scanExponent_le
    · simp

private theorem scanAfterWhole_le :
    (scanAfterWhole negative whole octets).2.length ≤ octets.length := by
  cases octets with
  | nil => exact scanTail_le
  | cons octet more =>
    by_cases point : octet = 0x2E
    · subst point
      cases more with
      | nil => simp [scanAfterWhole, scanFraction]
      | cons first more =>
        simp only [scanAfterWhole, scanFraction]
        split
        · exact Nat.le_succ_of_le (Nat.le_trans scanTail_le dropWhile_le)
        · simp
    · rw [scanAfterWhole_bare point]
      exact scanTail_le

private theorem scanSize_le {first : UInt8} :
    (scanSize negative (first :: octets)).2.length ≤ octets.length := by
  simp only [scanSize]
  split
  · split
    · exact scanAfterWhole_le
    · split
      · simp
      · exact scanAfterWhole_le
  · split
    · exact Nat.le_trans scanAfterWhole_le dropWhile_le
    · simp

/-- Reading a numeral takes at least one octet. -/
theorem scan_le {first : UInt8} : (scan (first :: octets)).2.length ≤ octets.length := by
  by_cases minus : first = 0x2D
  · subst minus
    cases octets with
    | nil => simp [scan, scanSize]
    | cons first more => exact Nat.le_succ_of_le scanSize_le
  · rw [scan_bare minus]
    exact scanSize_le

end Parts

end Scanning

section Writing

variable {n : Numeral} {tail : Octets}

/-- The part of a numeral's text that begins with the letter of the exponent. -/
private def powerOctets : Option (Bool × List UInt8) → Octets
  | none => []
  | some (down, digits) => 0x65 :: (if down then 0x2D else 0x2B) :: digits

/-- The part that begins with the point. -/
private def fractionOctets : Option (List UInt8) → Octets
  | none => []
  | some digits => 0x2E :: digits

private theorem octets_parts : n.octets = signOctets n.negative
    ++ (n.whole ++ (fractionOctets n.fraction ++ powerOctets n.exponent)) := by
  unfold octets
  cases n.fraction <;> cases n.exponent <;> simp [fractionOctets, powerOctets]

/-- The first digit of a run that is followed by something else, and the run itself. -/
private theorem digits_found {digits tail : Octets} (all : digits.all isDigit = true)
    (some : digits ≠ []) (stop : tail.head?.all (fun octet => !isDigit octet) = true) :
    ∃ first more, digits ++ tail = first :: more ∧ isDigit first = true ∧
      (first :: more).takeWhile isDigit = digits ∧ (first :: more).dropWhile isDigit = tail := by
  obtain ⟨taken, left⟩ := takeWhile_digits digits all stop
  cases digits with
  | nil => exact absurd rfl some
  | cons first more =>
    simp only [List.all_cons, Bool.and_eq_true] at all
    exact ⟨first, more ++ tail, rfl, all.1, taken, left⟩

private theorem scanPower_octets {negative down : Bool} {whole digits : List UInt8}
    {fraction : Option (List UInt8)} (all : digits.all isDigit = true) (some : digits ≠ [])
    (stops : Stops tail) :
    scanPower negative whole fraction down (digits ++ tail) =
      (.numeral ⟨negative, whole, fraction, .some (down, digits)⟩, tail) := by
  obtain ⟨first, more, spelled, digit, taken, left⟩ := digits_found all some (stops_digit stops)
  rw [spelled, scanPower, if_pos digit, taken, left]

private theorem scanTail_octets (wellFormed : n.WellFormed) (stops : Stops tail) :
    scanTail n.negative n.whole n.fraction (powerOctets n.exponent ++ tail) =
      (.numeral n, tail) := by
  obtain ⟨negative, whole, fraction, exponent⟩ := n
  cases exponent with
  | none =>
    have ended : scanTail negative whole fraction [] = (.numeral ⟨_, _, _, none⟩, []) := rfl
    exact scanTail_append ended fun _ => stops
  | some power =>
    obtain ⟨down, digits⟩ := power
    obtain ⟨all, some⟩ := wellFormed.exponent down digits rfl
    have scanned : scanPower negative whole fraction down (digits ++ tail) =
        (.numeral ⟨negative, whole, fraction, .some (down, digits)⟩, tail) :=
      scanPower_octets all some stops
    cases down with
    | true => simpa [powerOctets, scanTail, scanExponent_minus] using scanned
    | false => simpa [powerOctets, scanTail, scanExponent_plus] using scanned

private theorem power_stops (stops : Stops tail) :
    (powerOctets n.exponent ++ tail).head?.all (fun octet => !isDigit octet) = true := by
  cases n.exponent with
  | none => exact stops_digit stops
  | some power => rfl

private theorem scanAfterWhole_octets (wellFormed : n.WellFormed) (stops : Stops tail) :
    scanAfterWhole n.negative n.whole (fractionOctets n.fraction ++ (powerOctets n.exponent ++ tail))
      = (.numeral n, tail) := by
  have rest := scanTail_octets wellFormed stops
  cases fraction : n.fraction with
  | none =>
    rw [fraction] at rest
    -- what follows the whole digits begins with the letter of an exponent or ends the number
    cases power : n.exponent with
    | none =>
      rw [power] at rest
      cases tail with
      | nil => exact rest
      | cons octet more => exact (scanAfterWhole_bare stops.2.1).trans rest
    | some power' =>
      rw [power] at rest
      exact (scanAfterWhole_bare (by decide)).trans rest
  | some digits =>
    obtain ⟨all, some⟩ := wellFormed.fraction digits fraction
    obtain ⟨first, more, spelled, digit, taken, left⟩ :=
      digits_found all some (power_stops (n := n) stops)
    rw [fraction] at rest
    simp only [fractionOctets, List.cons_append, scanAfterWhole]
    rw [spelled, scanFraction, if_pos digit, taken, left, rest]

private theorem fraction_stops (stops : Stops tail) :
    (fractionOctets n.fraction ++ (powerOctets n.exponent ++ tail)).head?.all
      (fun octet => !isDigit octet) = true := by
  cases n.fraction with
  | none => exact power_stops stops
  | some digits => rfl

private theorem scanSize_octets (wellFormed : n.WellFormed) (stops : Stops tail) :
    scanSize n.negative
      (n.whole ++ (fractionOctets n.fraction ++ (powerOctets n.exponent ++ tail))) =
      (.numeral n, tail) := by
  have rest := scanAfterWhole_octets wellFormed stops
  obtain ⟨first, more, spelled, digit, taken, left⟩ :=
    digits_found wellFormed.whole wellFormed.wholeSome (fraction_stops (n := n) stops)
  by_cases zero : first = 0x30
  · subst zero
    have alone : n.whole = [0x30] := wellFormed.noLeadingZero (by
      rw [← taken]
      simp [digit])
    rw [alone] at rest ⊢
    have after := fraction_stops (n := n) stops
    simp only [List.cons_append, List.nil_append, scanSize, if_true]
    cases following : fractionOctets n.fraction ++ (powerOctets n.exponent ++ tail) with
    | nil => rw [following] at rest; exact rest
    | cons next more =>
      rw [following] at rest after
      have off : isDigit next = false := by simpa using after
      rw [← rest]
      simp [off]
  · simp only [List.takeWhile_cons, List.dropWhile_cons, digit, if_true] at taken left
    rw [spelled]
    simp only [scanSize, if_neg zero, if_pos digit, taken, left, rest]

/-- The text of a numeral is read as the numeral. -/
theorem scan_octets (wellFormed : n.WellFormed) (stops : Stops tail) :
    scan (n.octets ++ tail) = (.numeral n, tail) := by
  have rest := scanSize_octets wellFormed stops
  rw [octets_parts]
  cases negative : n.negative with
  | true =>
    rw [negative] at rest
    simpa [scan, signOctets] using rest
  | false =>
    rw [negative] at rest
    obtain ⟨first, more, spelled, digit, _⟩ :=
      digits_found wellFormed.whole wellFormed.wholeSome (fraction_stops (n := n) stops)
    have minus : first ≠ 0x2D := by rintro rfl; exact absurd digit (by decide)
    rw [spelled] at rest
    simp only [signOctets, Bool.false_eq_true, if_false, List.nil_append, List.append_assoc]
    rw [spelled, scan_bare minus, rest]

end Writing

end Columnar.Numeral
