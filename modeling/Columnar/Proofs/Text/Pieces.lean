import Mathlib.Data.List.Basic
import Mathlib.Data.List.TakeWhile
import Columnar.Text.Blank
import Columnar.Text.Letters

/-! Texts cut into pieces. Trimming leaves a text alone that has no blank at either end. Cutting at a
separator finds the pieces that were put together, as far as none of them has the separator in it. -/
namespace Columnar.Text

variable {separator c : Char} {text before : List Char}

/-- There is no blank at either end. -/
def Trimmed (text : List Char) : Prop :=
  (∀ c ∈ text.head?, isBlank c = false) ∧ ∀ c ∈ text.getLast?, isBlank c = false

instance (text : List Char) : Decidable (Trimmed text) :=
  decidable_of_iff ((text.head?.all fun c => !isBlank c) = true ∧
      (text.getLast?.all fun c => !isBlank c) = true) <| by
    simp only [Trimmed, Option.all_eq_true, Option.mem_def, Bool.not_eq_true']

/-- An ASCII character that shows: a letter, a digit or a mark. -/
def Printed (c : Char) : Prop := 0x20 < c.toNat ∧ c.toNat < 0x7F

instance (c : Char) : Decidable (Printed c) := inferInstanceAs (Decidable (_ ∧ _))

theorem Printed.not_blank (printed : Printed c) : isBlank c = false := by
  obtain ⟨low, high⟩ := printed
  simp only [isBlank, blankRanges, List.any_eq_false, List.forall_mem_cons, Bool.and_eq_true,
    decide_eq_true_eq, List.not_mem_nil, false_imp_iff, implies_true, and_true]
  omega

theorem trimmed_of_printed (printed : ∀ c ∈ text, Printed c) : Trimmed text :=
  ⟨fun c first => (printed c (List.mem_of_head? first)).not_blank,
    fun c last => (printed c (List.mem_of_getLast? last)).not_blank⟩

private theorem dropWhile_isBlank (unblank : ∀ c ∈ text.head?, isBlank c = false) :
    text.dropWhile isBlank = text := by
  cases text with
  | nil => rfl
  | cons first rest =>
    have here : isBlank first = false := unblank first rfl
    exact List.dropWhile_cons_of_neg (by simp [here])

theorem trimChars_of_trimmed (trimmed : Trimmed text) : trimChars text = text := by
  have atEnd : ∀ c ∈ text.reverse.head?, isBlank c = false := by
    rw [List.head?_reverse]
    exact trimmed.2
  rw [trimChars, dropWhile_isBlank trimmed.1, trimEnd, dropWhile_isBlank atEnd,
    List.reverse_reverse]

theorem trimChars_blank (blank : isBlank c = true) (text : List Char) :
    trimChars (c :: text) = trimChars text := by
  rw [trimChars, List.dropWhile_cons_of_pos blank, trimChars]

theorem trimEnd_append_blanks {blanks : List Char} (blank : ∀ c ∈ blanks, isBlank c = true)
    (text : List Char) : trimEnd (text ++ blanks) = trimEnd text := by
  have reversed : ∀ c ∈ blanks.reverse, isBlank c = true :=
    fun c member => blank c (List.mem_reverse.1 member)
  rw [trimEnd, List.reverse_append, List.dropWhile_append_of_pos reversed, trimEnd]

/-- Blanks around a text do not matter when it is trimmed. -/
theorem trimChars_between {before after : List Char} (left : ∀ c ∈ before, isBlank c = true)
    (right : ∀ c ∈ after, isBlank c = true) (text : List Char) :
    trimChars (before ++ text ++ after) = trimChars text := by
  rw [trimChars, List.append_assoc, List.dropWhile_append_of_pos left, List.dropWhile_append]
  split
  next nothing =>
    have empty : after.dropWhile isBlank = [] := List.dropWhile_eq_nil_iff.2 right
    rw [empty, trimChars, List.isEmpty_iff.1 nothing]
  next => rw [trimEnd_append_blanks right, trimChars]

theorem trim_between {before after : List Char} {text : String}
    (left : ∀ c ∈ before, isBlank c = true) (right : ∀ c ∈ after, isBlank c = true)
    (trimmed : Trimmed text.toList) :
    trim (String.ofList (before ++ text.toList ++ after)) = text := by
  rw [trim, String.toList_ofList, trimChars_between left right, trimChars_of_trimmed trimmed,
    String.ofList_toList]

theorem mem_of_mem_trimChars (member : c ∈ trimChars text) : c ∈ text := by
  rw [trimChars, trimEnd, List.mem_reverse] at member
  have inside := (List.dropWhile_suffix isBlank).subset member
  exact (List.dropWhile_suffix isBlank).subset (List.mem_reverse.1 inside)

theorem isEmpty_trimChars : (trimChars text).isEmpty = text.all isBlank := by
  rw [Bool.eq_iff_iff, List.isEmpty_iff, List.all_eq_true, trimChars, trimEnd,
    List.reverse_eq_nil_iff, List.dropWhile_eq_nil_iff]
  constructor
  · intro blank c member
    rw [← List.takeWhile_append_dropWhile (p := isBlank) (l := text), List.mem_append] at member
    rcases member with start | rest
    · exact List.mem_takeWhile_imp start
    · exact blank c (List.mem_reverse.2 rest)
  · intro blank c member
    exact blank c ((List.dropWhile_suffix isBlank).subset (List.mem_reverse.1 member))

private theorem dropWhile_append_cons (unblank : isBlank c = false) (before after : List Char) :
    (before ++ c :: after).dropWhile isBlank = before.dropWhile isBlank ++ c :: after := by
  induction before with
  | nil => exact List.dropWhile_cons_of_neg (by simp [unblank])
  | cons first rest ih =>
    by_cases blank : isBlank first = true
    · rw [List.cons_append, List.dropWhile_cons_of_pos blank, List.dropWhile_cons_of_pos blank, ih]
    · rw [List.cons_append, List.dropWhile_cons_of_neg blank, List.dropWhile_cons_of_neg blank,
        List.cons_append]

private theorem trimEnd_append_cons (unblank : isBlank c = false) (before after : List Char) :
    trimEnd (before ++ c :: after) = before ++ c :: trimEnd after := by
  have backwards : (before ++ c :: after).reverse = after.reverse ++ c :: before.reverse := by simp
  rw [trimEnd, backwards, dropWhile_append_cons unblank, trimEnd]
  simp

/-- Blanks are taken off no further than to a character that is none. -/
theorem trimChars_append_cons (unblank : isBlank c = false) (before after : List Char) :
    trimChars (before ++ c :: after) = before.dropWhile isBlank ++ c :: trimEnd after := by
  rw [trimChars, dropWhile_append_cons unblank, trimEnd_append_cons unblank]

theorem trimChars_dropWhile (text : List Char) :
    trimChars (text.dropWhile isBlank) = trimChars text := by
  have blank : ∀ c ∈ text.takeWhile isBlank, isBlank c = true := fun c => List.mem_takeWhile_imp
  have same := trimChars_between blank (List.forall_mem_nil _) (text.dropWhile isBlank)
  rw [List.append_nil, List.takeWhile_append_dropWhile] at same
  exact same.symm

theorem trimChars_trimEnd (text : List Char) : trimChars (trimEnd text) = trimChars text := by
  have parts : text = trimEnd text ++ (text.reverse.takeWhile isBlank).reverse := by
    rw [trimEnd, ← List.reverse_append, List.takeWhile_append_dropWhile, List.reverse_reverse]
  have blank : ∀ c ∈ (text.reverse.takeWhile isBlank).reverse, isBlank c = true :=
    fun c member => List.mem_takeWhile_imp (List.mem_reverse.1 member)
  have same := trimChars_between (List.forall_mem_nil _) blank (trimEnd text)
  rw [List.nil_append, ← parts] at same
  exact same.symm

/-- A text is trimmed when it begins with a trimmed part and ends with another one. -/
theorem Trimmed.append {first last : List Char} (left : Trimmed first) (right : Trimmed last)
    (some : first ≠ []) (others : last ≠ []) : Trimmed (first ++ last) := by
  refine ⟨?_, ?_⟩
  · rw [List.head?_append_of_ne_nil _ some]
    exact left.1
  · rw [List.getLast?_append_of_ne_nil _ others]
    exact right.2

theorem splitChars_of_not_mem (free : separator ∉ text) : splitChars separator text = [text] := by
  induction text with
  | nil => rfl
  | cons first rest ih =>
    rw [List.mem_cons, not_or] at free
    rw [splitChars, if_neg (Ne.symm free.1), ih free.2]

theorem splitChars_append (free : separator ∉ text) (rest : List Char) :
    splitChars separator (text ++ separator :: rest) = text :: splitChars separator rest := by
  induction text with
  | nil => rw [List.nil_append, splitChars, if_pos rfl]
  | cons first text ih =>
    rw [List.mem_cons, not_or] at free
    rw [List.cons_append, splitChars, if_neg (Ne.symm free.1), ih free.2]

/-- Pieces that stand between separators, each separator with something after it, are found again
with that in front of all but the first. -/
theorem splitChars_intercalate (after : List Char) (first : List Char) (pieces : List (List Char))
    (free : ∀ piece ∈ first :: pieces, separator ∉ piece) (clean : separator ∉ after) :
    splitChars separator ((separator :: after).intercalate (first :: pieces)) =
      first :: pieces.map (after ++ ·) := by
  induction pieces generalizing first with
  | nil =>
    rw [List.intercalate_singleton]
    exact splitChars_of_not_mem (free first (List.mem_cons_self ..))
  | cons second rest ih =>
    rw [List.forall_mem_cons, List.forall_mem_cons] at free
    obtain ⟨here, next, later⟩ := free
    have joined : after ++ (separator :: after).intercalate (second :: rest) =
        (separator :: after).intercalate ((after ++ second) :: rest) := by
      cases rest with
      | nil => rw [List.intercalate_singleton, List.intercalate_singleton]
      | cons third others =>
        simp only [List.intercalate_cons_cons, List.append_assoc]
    have freeNext : separator ∉ after ++ second :=
      fun member => (List.mem_append.1 member).elim clean next
    rw [List.intercalate_cons_cons, List.append_assoc, List.cons_append, splitChars_append here,
      joined, ih _ (List.forall_mem_cons.2 ⟨freeNext, later⟩), List.map_cons]

/-- No piece has the separator in it. -/
theorem not_mem_of_mem_splitChars {piece : List Char} (found : piece ∈ splitChars separator text) :
    separator ∉ piece := by
  induction text generalizing piece with
  | nil =>
    rw [List.mem_singleton.1 found]
    exact List.not_mem_nil
  | cons first rest ih =>
    rw [splitChars] at found
    split at found
    next =>
      rcases List.mem_cons.1 found with rfl | later
      · exact List.not_mem_nil
      · exact ih later
    next other =>
      cases pieces : splitChars separator rest with
      | nil =>
        rw [pieces] at found
        rw [List.mem_singleton.1 found, List.mem_singleton]
        exact Ne.symm other
      | cons here later =>
        rw [pieces] at found ih
        rcases List.mem_cons.1 found with rfl | member
        · rw [List.mem_cons, not_or]
          exact ⟨Ne.symm other, ih (List.mem_cons_self ..)⟩
        · exact ih (List.mem_cons_of_mem _ member)

/-- What is cut at a separator is the text without it. -/
theorem eq_append_of_cutAt {after : List Char} (cut : cutAt separator text = some (before, after)) :
    text = before ++ separator :: after := by
  induction text generalizing before with
  | nil => cases cut
  | cons first rest ih =>
    rw [cutAt] at cut
    split at cut
    next same =>
      cases cut
      rw [same, List.nil_append]
    next =>
      obtain ⟨⟨start, _⟩, later, parts⟩ := Option.map_eq_some_iff.1 cut
      cases parts
      rw [ih later, List.cons_append]

theorem cutAt_append (free : separator ∉ before) (after : List Char) :
    cutAt separator (before ++ separator :: after) = some (before, after) := by
  induction before with
  | nil => rw [List.nil_append, cutAt, if_pos rfl]
  | cons first rest ih =>
    rw [List.mem_cons, not_or] at free
    rw [List.cons_append, cutAt, if_neg (Ne.symm free.1), ih free.2]
    rfl

theorem cutAt_eq_none_iff : cutAt separator text = none ↔ separator ∉ text := by
  induction text with
  | nil => simp [cutAt]
  | cons first rest ih =>
    rw [cutAt, List.mem_cons, not_or]
    split
    next same => simp [same]
    next other => rw [Option.map_eq_none_iff, ih, and_iff_right (Ne.symm other)]

/-- What stands before and after the first separator of a text that has one. -/
theorem eq_append_of_mem (member : separator ∈ text) :
    text = text.takeWhile (· != separator) ++ separator ::
      (text.dropWhile (· != separator)).tail := by
  have rest : text.dropWhile (· != separator) ≠ [] := by
    intro nothing
    have all := List.dropWhile_eq_nil_iff.1 nothing separator member
    simp at all
  have first := List.head_dropWhile_not (· != separator) rest
  rw [bne_eq_false_iff_eq] at first
  conv_lhs => rw [← List.takeWhile_append_dropWhile (p := (· != separator)) (l := text),
    ← List.cons_head_tail rest, first]

theorem not_mem_takeWhile (separator : Char) (text : List Char) :
    separator ∉ text.takeWhile (· != separator) := by
  intro member
  have differs := List.mem_takeWhile_imp member
  simp at differs

/-- A text is cut at its first separator, with or without the blanks around it. -/
theorem cutAt_trimChars (unblank : isBlank separator = false) (member : separator ∈ text) :
    cutAt separator (trimChars text) =
      some ((text.takeWhile (· != separator)).dropWhile isBlank,
        trimEnd (text.dropWhile (· != separator)).tail) := by
  have free : separator ∉ (text.takeWhile (· != separator)).dropWhile isBlank := fun inside =>
    not_mem_takeWhile separator text ((List.dropWhile_suffix isBlank).subset inside)
  conv_lhs => rw [eq_append_of_mem member, trimChars_append_cons unblank]
  exact cutAt_append free _

private theorem afterPrefix?_eq_some_iff {start rest : List Char} :
    afterPrefix? start text = some rest ↔ text = start ++ rest := by
  induction start generalizing text with
  | nil => simp [afterPrefix?]
  | cons first start ih =>
    cases text with
    | nil => simp [afterPrefix?]
    | cons c text =>
      rw [afterPrefix?, List.cons_append, List.cons.injEq]
      split
      next same => rw [ih, and_iff_right same.symm]
      next other => exact ⟨nofun, fun both => absurd both.1.symm other⟩

/-- A text has an ending just when it is something followed by the ending. -/
theorem beforeSuffix?_eq_some_iff {ending : List Char} :
    beforeSuffix? ending text = some before ↔ text = before ++ ending := by
  rw [beforeSuffix?, Option.map_eq_some_iff]
  constructor
  · rintro ⟨rest, found, rfl⟩
    rw [afterPrefix?_eq_some_iff] at found
    rw [← List.reverse_reverse text, found, List.reverse_append, List.reverse_reverse]
  · rintro rfl
    refine ⟨before.reverse, ?_, List.reverse_reverse before⟩
    rw [afterPrefix?_eq_some_iff, List.reverse_append]

end Columnar.Text
