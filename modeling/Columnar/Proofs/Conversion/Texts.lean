import Columnar.Proofs.Conversion
import Columnar.Proofs.Time.Written

/-! Values that are shown as texts and read again. Integers and truth values come back as they were,
and so does every time of a year with four digits; blanks around the text do not matter. -/
namespace Columnar

section Integers

variable {limit total : Nat} {beyond : IntegerFault} {digits : List Char}

/-- More digits never make a number smaller, so that a number which fits in the end has fit all the
time. -/
theorem readDigits_of_le (all : ∀ c ∈ digits, c.isDigit = true)
    (fits : Nat.ofDigitChars 10 digits total ≤ limit) :
    readDigits limit beyond total digits = .ok (Nat.ofDigitChars 10 digits total) := by
  induction digits generalizing total with
  | nil => rfl
  | cons c rest ih =>
    rw [List.forall_mem_cons] at all
    rw [Nat.ofDigitChars_cons, Nat.mul_comm 10] at fits ⊢
    have grows : total * 10 + (c.toNat - '0'.toNat) ≤
        Nat.ofDigitChars 10 rest (total * 10 + (c.toNat - '0'.toNat)) := by
      rw [Nat.ofDigitChars_eq_ofDigitChars_zero]
      exact Nat.le_trans (Nat.le_mul_of_pos_left _ (Nat.pow_pos (by decide))) (Nat.le_add_right ..)
    rw [readDigits, all.1]
    dsimp only
    rw [if_neg (by decide), if_neg (Nat.not_lt.2 (Nat.le_trans grows fits)), ih all.2 fits]

theorem readDigits_toDigits {n : Nat} (fits : n ≤ limit) :
    readDigits limit beyond 0 (Nat.toDigits 10 n) = .ok n := by
  have same : Nat.ofDigitChars 10 (Nat.toDigits 10 n) 0 = n := Nat.ofDigitChars_ten_toDigits
  rw [readDigits_of_le (fun _ => isDigit_of_mem_digits) (same.symm ▸ fits), same]

theorem printed_of_mem_integerText (n : Int) : ∀ c ∈ (integerText n).toList, Text.Printed c := by
  have digits : ∀ c ∈ Nat.toDigits 10 n.natAbs, Text.Printed c :=
    fun _ member => printed_of_isDigit (isDigit_of_mem_digits member)
  rw [integerText, String.toList_ofList, integerChars]
  split
  · exact List.forall_mem_cons.2 ⟨by decide, digits⟩
  · exact digits

theorem readInteger_unsigned {text : String} {first : Char} {rest : List Char}
    (digit : first.isDigit = true) (chars : text.toList = first :: rest) :
    readInteger text =
      (readDigits 0x7FFFFFFFFFFFFFFF .tooLarge 0 (first :: rest)).map Int.ofNat := by
  have noSign {sign : Char} {others : List Char} (mark : sign.isDigit = false)
      (same : first :: rest = sign :: others) : False := by
    cases same
    rw [mark] at digit
    cases digit
  rw [readInteger, chars]
  split
  next none => cases none
  next plus => exact (noSign rfl plus).elim
  next minus => exact (noSign rfl minus).elim
  next plus => exact (noSign rfl plus).elim
  next minus => exact (noSign rfl minus).elim
  next => rfl

theorem readInteger_negative {text : String} {first : Char} {rest : List Char}
    (chars : text.toList = '-' :: first :: rest) :
    readInteger text =
      (readDigits 0x8000000000000000 .tooSmall 0 (first :: rest)).map fun n => -Int.ofNat n := by
  rw [readInteger, chars]
  split
  next none => cases none
  next plus => cases plus
  next minus => cases minus
  next plus => cases plus
  next minus =>
    cases minus
    cases readDigits 0x8000000000000000 .tooSmall 0 (first :: rest) <;> rfl
  next noMinus => exact (noMinus _ rfl).elim

/-- An integer of 64 bits is read back, the least one too, whose size has no place among them. -/
theorem readInteger_integerText {n : Int} (low : -0x8000000000000000 ≤ n)
    (high : n < 0x8000000000000000) : readInteger (integerText n) = .ok n := by
  obtain ⟨first, rest, shape⟩ : ∃ first rest, Nat.toDigits 10 n.natAbs = first :: rest :=
    List.exists_cons_of_ne_nil Nat.toDigits_ne_nil
  have listed : first ∈ Nat.toDigits 10 n.natAbs := shape ▸ List.mem_cons_self ..
  by_cases negative : n < 0
  · have chars : (integerText n).toList = '-' :: first :: rest := by
      rw [integerText, String.toList_ofList, integerChars, if_pos negative, shape]
    have size : n.natAbs ≤ 0x8000000000000000 := by omega
    have back : -Int.ofNat n.natAbs = n := by rw [Int.ofNat_eq_natCast]; omega
    rw [readInteger_negative chars, ← shape, readDigits_toDigits size]
    exact congrArg Except.ok back
  · have chars : (integerText n).toList = first :: rest := by
      rw [integerText, String.toList_ofList, integerChars, if_neg negative, shape]
    have size : n.natAbs ≤ 0x7FFFFFFFFFFFFFFF := by omega
    have back : Int.ofNat n.natAbs = n := by rw [Int.ofNat_eq_natCast]; omega
    rw [readInteger_unsigned (isDigit_of_mem_digits listed) chars, ← shape,
      readDigits_toDigits size]
    exact congrArg Except.ok back

end Integers

namespace Conversion

/-- A value is found again in its own text, whatever blanks stand around the text. -/
def Undoes (back : Conversion) (value : Value) : Prop :=
  ∃ text : String, anyToString.convert value = .ok (.of .string text) ∧
    ∀ before after : List Char, (∀ c ∈ before, Text.isBlank c = true) →
      (∀ c ∈ after, Text.isBlank c = true) →
      back.convert (.of .string (String.ofList (before ++ text.toList ++ after))) = .ok value

/-- A text of printed characters is what the reader is given, and all depends on the reader. -/
theorem undoes_ofText_iff (target : Kind) {read : String → Except ConversionFault target.Element}
    {element : target.Element} (some : (target.text element).toList ≠ [])
    (printed : ∀ c ∈ (target.text element).toList, Text.Printed c) :
    Undoes ⟨⟨target, true⟩, ofText target read⟩ (.of target element) ↔
      read (target.text element) = .ok element := by
  have trimmed := Text.trimmed_of_printed printed
  have given {before after : List Char} (left : ∀ c ∈ before, Text.isBlank c = true)
      (right : ∀ c ∈ after, Text.isBlank c = true) :
      ofText target read
          (.of .string (String.ofList (before ++ (target.text element).toList ++ after))) =
        ((read (target.text element)).map (Value.of target)).mapError Error.conversion := by
    rw [ofText, Text.trim_between left right trimmed]
    refine (if_neg fun none => some ?_).trans ?_
    · rw [String.isEmpty_iff.1 none, String.toList_empty]
    · cases read (target.text element) <;> rfl
  constructor
  · rintro ⟨text, shown, back⟩
    have same : target.text element = text := by
      cases shown
      rfl
    subst same
    have noBlanks : ∀ c ∈ ([] : List Char), Text.isBlank c = true := List.forall_mem_nil _
    have bare := back [] [] noBlanks noBlanks
    dsimp only at bare
    rw [given noBlanks noBlanks, mapError_eq_ok_iff, map_eq_ok_iff] at bare
    obtain ⟨found, ran, same⟩ := bare
    cases same
    exact ran
  · intro ran
    refine ⟨target.text element, rfl, fun before after left right => ?_⟩
    dsimp only
    rw [given left right, ran]
    rfl

theorem stringToInt64_undoes (n : Int64) : stringToInt64.Undoes (.of .int64 n) := by
  have some : (integerText n.toInt).toList ≠ [] := by
    rw [integerText, String.toList_ofList, integerChars]
    split
    · exact List.cons_ne_nil _ _
    · exact Nat.toDigits_ne_nil
  refine (undoes_ofText_iff .int64 some (printed_of_mem_integerText n.toInt)).2 ?_
  have read : readInteger (integerText n.toInt) = .ok n.toInt :=
    readInteger_integerText n.le_toInt n.toInt_lt
  change readInt64 (integerText n.toInt) = .ok n
  rw [readInt64, read]
  exact congrArg Except.ok (Int64.ofInt_toInt n)

theorem stringToBool_undoes (truth : Bool) : stringToBool.Undoes (.of .bool truth) := by
  have printed : ∀ c ∈ (Kind.text .bool truth).toList, Text.Printed c := by
    cases truth <;> simp [Kind.text, Text.Printed]
  refine (undoes_ofText_iff .bool ?_ printed).2 ?_
  · cases truth <;> decide
  · cases truth <;> rfl

theorem stringToTime_undoes_iff (t : Instant) : stringToTime.Undoes (.of .time t) ↔
    0 ≤ t.date.year ∧ t.date.year ≤ 9999 := by
  have some : t.rfc3339.toList ≠ [] := by
    rw [Instant.rfc3339, String.toList_ofList]
    exact List.append_ne_nil_of_right_ne_nil _ (List.cons_ne_nil _ _)
  refine (undoes_ofText_iff .time some t.printed_of_mem_rfc3339).trans ?_
  change readTime t.rfc3339 = .ok t ↔ _
  rw [readTime]
  by_cases near : 0 ≤ t.date.year ∧ t.date.year ≤ 9999
  · rw [Instant.read_rfc3339 near.1 near.2]
    exact iff_of_true rfl near
  · obtain ⟨fault, failed⟩ := Instant.read_rfc3339_signed near
    rw [failed]
    exact iff_of_false (fun read => by cases read) near

/-- What is shown as a text is read again: an integer, a truth value, and a time just when its year
has four digits. Null is shown as null and read as null. -/
theorem undoes_text :
    (∀ n : Int64, stringToInt64.Undoes (.of .int64 n)) ∧
    (∀ truth : Bool, stringToBool.Undoes (.of .bool truth)) ∧
    (∀ t : Instant, stringToTime.Undoes (.of .time t) ↔
      0 ≤ t.date.year ∧ t.date.year ≤ 9999) ∧
    ∀ conversion ∈ stock, conversion.convert .null = .ok .null := by
  refine ⟨stringToInt64_undoes, stringToBool_undoes, stringToTime_undoes_iff, ?_⟩
  intro conversion listed
  simp only [stock, List.mem_cons, List.not_mem_nil, or_false] at listed
  rcases listed with rfl | rfl | rfl | rfl | rfl | rfl <;> rfl

/-- The last moment of a leap second. -/
def leapSecond : Instant := ⟨1483228799, 1999999999, by decide, by decide, by decide, by decide⟩

/-- The least integer, a leap second to its last nanosecond, and a year of five digits. -/
theorem undoes_text_bounds :
    stringToInt64.Undoes (.of .int64 Int64.minValue) ∧
    stringToTime.Undoes (.of .time leapSecond) ∧
    ¬stringToTime.Undoes (.of .time ⟨253402300800, 0, by decide, by decide, by decide, by decide⟩) :=
  ⟨undoes_text.1 _, (undoes_text.2.2.1 _).2 (by decide),
    fun undone => absurd ((undoes_text.2.2.1 _).1 undone) (by decide)⟩

end Conversion

end Columnar
