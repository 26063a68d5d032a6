import Columnar.Time.Calendar

/-! Days and their dates. Every day, however far from 1970, has a date that the calendar has, and the
day is found again from the date. -/
namespace Columnar

namespace Calendar

/-- A year is as long as its months together. -/
theorem daysBeforeYear_succ (year : Int) :
    daysBeforeYear (year + 1) = daysBeforeYear year + totalDays (monthLengths (isLeapYear year)) := by
  cases leap : isLeapYear year with
  | true =>
    have long : totalDays (monthLengths true) = 366 := rfl
    simp only [isLeapYear, Bool.and_eq_true, Bool.or_eq_true, beq_iff_eq, bne_iff_ne] at leap
    rw [long, daysBeforeYear, daysBeforeYear]
    omega
  | false =>
    have short : totalDays (monthLengths false) = 365 := rfl
    simp only [isLeapYear, ← Bool.not_eq_true, Bool.and_eq_true, Bool.or_eq_true, beq_iff_eq,
      bne_iff_ne] at leap
    rw [short, daysBeforeYear, daysBeforeYear]
    omega

/-- A day belongs to the year that has begun by then and has not ended. -/
theorem yearOfDay_bounds (day : Int) :
    daysBeforeYear (yearOfDay day) ≤ day ∧ day < daysBeforeYear (yearOfDay day + 1) := by
  unfold yearOfDay
  dsimp only
  split
  next early =>
    rw [Int.sub_add_cancel]
    refine ⟨?_, early⟩
    rw [daysBeforeYear] at early ⊢
    omega
  · split
    next late =>
      refine ⟨late, ?_⟩
      rw [daysBeforeYear]
      omega
    next => omega

/-- Month and day of the month are those of the day they are found for. -/
theorem monthOfDay_spec {lengths : List Nat} {day : Nat} (within : day < totalDays lengths) :
    ∃ month dayOfMonth, monthOfDay lengths day = (month, dayOfMonth) ∧
      (∃ length, lengths[month]? = some length ∧ dayOfMonth < length) ∧
      totalDays (lengths.take month) + dayOfMonth = day := by
  induction lengths generalizing day with
  | nil => cases within
  | cons length rest ih =>
    rw [totalDays] at within
    rw [monthOfDay]
    split
    next here => exact ⟨0, day, rfl, ⟨length, rfl, here⟩, Nat.zero_add day⟩
    next later =>
      have left : day - length < totalDays rest :=
        Nat.sub_lt_left_of_lt_add (Nat.le_of_not_lt later) within
      obtain ⟨month, dayOfMonth, found, inside, counted⟩ := ih left
      rw [found]
      refine ⟨month + 1, dayOfMonth, rfl, inside, ?_⟩
      rw [List.take_succ_cons, totalDays]
      omega

theorem daysInMonth_le (year : Int) (month : Nat) : daysInMonth year month ≤ 31 := by
  have months : ∀ leap : Bool, ∀ length ∈ monthLengths leap, length ≤ 31 := by decide
  rw [daysInMonth, List.getD_eq_getElem?_getD]
  cases here : (monthLengths (isLeapYear year))[month - 1]? with
  | none => exact Nat.zero_le _
  | some length => exact months _ length (List.mem_of_getElem? here)

end Calendar

namespace Date

open Calendar

/-- The calendar has the date of a day, and the day of that date is the day. -/
theorem ofDay_spec (day : Int) : (ofDay day).isValid = true ∧ (ofDay day).toDay = day := by
  obtain ⟨begun, ahead⟩ := yearOfDay_bounds (day + epochDay)
  rw [daysBeforeYear_succ] at ahead
  have within : (day + epochDay - daysBeforeYear (yearOfDay (day + epochDay))).toNat <
      totalDays (monthLengths (isLeapYear (yearOfDay (day + epochDay)))) := by
    omega
  obtain ⟨month, dayOfMonth, found, ⟨length, here, inMonth⟩, counted⟩ := monthOfDay_spec within
  have date : ofDay day = ⟨yearOfDay (day + epochDay), month + 1, dayOfMonth + 1⟩ := by
    simp only [ofDay, found]
  have twelve : ∀ leap, (monthLengths leap).length = 12 := fun _ => rfl
  have inYear : month < 12 := twelve _ ▸ (List.getElem?_eq_some_iff.1 here).1
  rw [date]
  constructor
  · simp only [isValid, daysInMonth, Nat.add_sub_cancel, List.getD_eq_getElem?_getD, here,
      Option.getD_some, Bool.and_eq_true, decide_eq_true_eq]
    omega
  · simp only [toDay, Nat.add_sub_cancel]
    omega

end Date

end Columnar
