import Columnar.Proofs.Keyed
import Columnar.Proofs.LabelText

/-! Labels with their values in quotes. Quotes let a value begin and end with blanks and have any
characters between them, but a comma is not kept: a text is cut at its commas before anything is known
of quotes. -/
namespace Columnar

namespace Labels

/-- A pair with its value in quotes. -/
def quotedPair (pair : String × String) : List Char :=
  pair.1.toList ++ '=' :: '"' :: (pair.2.toList ++ ['"'])

/-- Pairs in braces, their values in quotes. -/
def quotedText (pairs : List (String × String)) : String :=
  String.ofList ('\x7b' :: ([',', ' '].intercalate (pairs.map quotedPair) ++ ['\x7d']))

/-- No value has a comma in it. -/
def CommaFree (labels : Labels) : Prop :=
  ∀ pair ∈ labels.pairs, ',' ∉ pair.2.toList

variable {labels after : Labels} {pair : String × String} {pairs : List (String × String)}
  {piece value : List Char} {text : String} {c : Char}

/-! ## Quoted values are read -/

theorem withoutQuotes_quoted (inner : List Char) :
    withoutQuotes ('"' :: (inner ++ ['"'])) = inner := by
  have found : Text.beforeSuffix? ['"'] (inner ++ ['"']) = some inner :=
    Text.beforeSuffix?_eq_some_iff.2 rfl
  rw [withoutQuotes, found]
  rfl

theorem trimmed_quoted (inner : List Char) : Text.Trimmed ('"' :: (inner ++ ['"'])) := by
  refine ⟨by rintro _ ⟨⟩; rfl, ?_⟩
  rw [← List.cons_append, List.getLast?_concat]
  rintro _ ⟨⟩
  rfl

theorem trimmed_quotedPair (key : PlainKey pair.1.toList) : Text.Trimmed (quotedPair pair) := by
  have last : Text.Trimmed ('=' :: '"' :: (pair.2.toList ++ ['"'])) := by
    refine ⟨by rintro _ ⟨⟩; rfl, ?_⟩
    rw [List.getLast?_cons_cons]
    exact (trimmed_quoted _).2
  exact key.trimmed.append last key.nonempty (List.cons_ne_nil _ _)

/-- Whatever stands between the quotes is the value. -/
theorem readAs_quotedPair (key : PlainKey pair.1.toList) : ReadAs (quotedPair pair) pair := by
  intro labels
  have cut : Text.cutAt '=' (Text.trimChars (quotedPair pair)) =
      some (pair.1.toList, '"' :: (pair.2.toList ++ ['"'])) := by
    rw [Text.trimChars_of_trimmed (trimmed_quotedPair key)]
    exact Text.cutAt_append key.noEquals _
  have sameKey := Text.trimChars_of_trimmed key.trimmed
  rw [addPiece_of_cut cut (by rw [sameKey]; exact key.nonempty), sameKey,
    Text.trimChars_of_trimmed (trimmed_quoted _), withoutQuotes_quoted, String.ofList_toList,
    String.ofList_toList]

theorem parse_braced (inner : List Char) :
    parse (String.ofList ('\x7b' :: (inner ++ ['\x7d']))) =
      (Text.splitChars ',' inner).foldlM addPiece empty := by
  have braced : Text.Trimmed ('\x7b' :: (inner ++ ['\x7d'])) := by
    refine ⟨by rintro _ ⟨⟩; rfl, ?_⟩
    rw [← List.cons_append, List.getLast?_concat]
    rintro _ ⟨⟩
    rfl
  rw [parse, String.toList_ofList, Text.trimChars_of_trimmed braced, withoutBraces_braced]

theorem parse_quotedText (keys : ∀ pair ∈ pairs, PlainKey pair.1.toList)
    (free : ∀ pair ∈ pairs, ',' ∉ pair.2.toList) : parse (quotedText pairs) = .ok (ofPairs pairs) := by
  rw [quotedText, parse_braced]
  cases pairs with
  | nil => rfl
  | cons first rest =>
    have clean : ∀ pair ∈ first :: rest, ',' ∉ quotedPair pair := by
      intro pair listed
      simp [quotedPair, (keys pair listed).noComma, free pair listed]
    exact foldlM_addPiece
      (forall₂_readAs_joined clean fun pair listed => readAs_quotedPair (keys pair listed)) empty

/-- Pairs with different keys are all there is in the labels made of them. -/
theorem ofPairs_perm (distinct : (pairs.map Prod.fst).Nodup) : (ofPairs pairs).pairs.Perm pairs := by
  have all : ((pairs ++ []).map Prod.fst).Nodup := by rwa [List.append_nil]
  have perm := Keyed.insertAll_perm all
  rw [List.append_nil] at perm
  rw [ofPairs, pairs_foldl]
  exact perm

/-! ## No comma is ever read -/

theorem mem_of_mem_withoutQuotes (member : c ∈ withoutQuotes value) : c ∈ value := by
  unfold withoutQuotes at member
  split at member
  next rest =>
    cases found : Text.beforeSuffix? ['"'] rest with
    | none =>
      rw [found] at member
      exact member
    | some inside =>
      rw [found] at member
      rw [Text.beforeSuffix?_eq_some_iff.1 found]
      exact List.mem_cons_of_mem _ (List.mem_append_left _ member)
  · exact member

theorem commaFree_insert {key text : String} (clean : labels.CommaFree) (free : ',' ∉ text.toList) :
    (labels.insert key text).CommaFree := by
  intro pair listed
  rcases Keyed.mem_insert listed with rfl | before
  · exact free
  · exact clean pair before

theorem commaFree_addPiece (clean : labels.CommaFree) (free : ',' ∉ piece)
    (added : addPiece labels piece = .ok after) : after.CommaFree := by
  simp only [addPiece] at added
  split at added
  next =>
    cases added
    exact clean
  next =>
    split at added
    next => cases added
    next key value cut =>
      split at added
      next => cases added
      next =>
        cases added
        refine commaFree_insert clean fun member => ?_
        rw [String.toList_ofList] at member
        have inValue := Text.mem_of_mem_trimChars (mem_of_mem_withoutQuotes member)
        refine free (Text.mem_of_mem_trimChars ?_)
        rw [Text.eq_append_of_cutAt cut]
        exact List.mem_append_right _ (List.mem_cons_of_mem _ inValue)

theorem commaFree_foldlM {pieces : List (List Char)} (clean : labels.CommaFree)
    (free : ∀ piece ∈ pieces, ',' ∉ piece) (ran : pieces.foldlM addPiece labels = .ok after) :
    after.CommaFree := by
  induction pieces generalizing labels with
  | nil =>
    cases ran
    exact clean
  | cons piece rest ih =>
    rw [List.foldlM_cons] at ran
    obtain ⟨next, added, ran⟩ := bind_eq_ok_iff.1 ran
    rw [List.forall_mem_cons] at free
    exact ih (commaFree_addPiece clean free.1 added) free.2 ran

theorem commaFree_of_parse (parsed : parse text = .ok labels) : labels.CommaFree := by
  have start : empty.CommaFree := List.forall_mem_nil _
  exact commaFree_foldlM start (fun _ => Text.not_mem_of_mem_splitChars) parsed

/-- Labels in quotes are found again just when no value has a comma in it; nothing else in a value
matters, not even a quote. -/
theorem parse_quotedText_iff (distinct : (pairs.map Prod.fst).Nodup)
    (keys : ∀ pair ∈ pairs, PlainKey pair.1.toList) :
    (∃ labels, parse (quotedText pairs) = .ok labels ∧ labels.pairs.Perm pairs) ↔
      ∀ pair ∈ pairs, ',' ∉ pair.2.toList := by
  constructor
  · rintro ⟨labels, parsed, same⟩ pair listed
    exact commaFree_of_parse parsed pair (same.mem_iff.2 listed)
  · intro free
    exact ⟨_, parse_quotedText keys free, ofPairs_perm distinct⟩

/-- A value between blanks, one with an equals sign and a brace, one that is a quote and one without
anything in it. -/
def rooms : List (String × String) :=
  [("name", " main hall "), ("rule", "a=b\x7d"), ("mark", "\""), ("note", "")]

theorem parse_rooms : (rooms.map Prod.fst).Nodup ∧
    (∀ pair ∈ rooms, PlainKey pair.1.toList) ∧ (∀ pair ∈ rooms, ',' ∉ pair.2.toList) ∧
    quotedText rooms =
      "\x7bname=\" main hall \", rule=\"a=b\x7d\", mark=\"\"\", note=\"\"\x7d" ∧
    ∃ labels, parse (quotedText rooms) = .ok labels ∧ labels.pairs.Perm rooms := by
  have distinct : (rooms.map Prod.fst).Nodup := by decide
  have keys : ∀ pair ∈ rooms, PlainKey pair.1.toList := by decide +kernel
  have free : ∀ pair ∈ rooms, ',' ∉ pair.2.toList := by decide +kernel
  exact ⟨distinct, keys, free, rfl, (parse_quotedText_iff distinct keys).2 free⟩

/-- A comma between quotes ends the value. What stands behind it is refused, or it is taken for a pair
of its own, and each part keeps one of the quotes. -/
theorem commas_cut : PlainKey "host".toList ∧ '"' ∉ "host".toList ∧
    '"' ∉ "a,b".toList ∧ '"' ∉ "a,dc=eu".toList ∧
    quotedText [("host", "a,b")] = "\x7bhost=\"a,b\"\x7d" ∧
    parse (quotedText [("host", "a,b")]) = .error (.noValue "b\"") ∧
    parse (quotedText [("host", "a,dc=eu")]) =
      .ok (ofPairs [("host", "\"a"), ("dc", "eu\"")]) := by
  refine ⟨by decide +kernel, by decide, by decide, by decide, rfl, rfl, rfl⟩

end Labels

end Columnar
