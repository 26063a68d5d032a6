import Columnar.Proofs.Json.Readers
import Columnar.Proofs.Text.Pieces

/-! Labels and their text. Nothing is escaped when labels are written, so that the text says them only
as far as no key and no value has a character in it that means something to the reader at its place.
Braces, equals signs in values and single quotes do not. -/
namespace Columnar

namespace Labels

/-- One quote begins the text and another one ends it. -/
def Quoted (text : List Char) : Prop :=
  2 ≤ text.length ∧ text.head? = some '"' ∧ text.getLast? = some '"'

instance (text : List Char) : Decidable (Quoted text) :=
  inferInstanceAs (Decidable (_ ∧ _))

/-- A key that ends where it is written to end. -/
structure PlainKey (key : List Char) : Prop where
  nonempty : key ≠ []
  trimmed : Text.Trimmed key
  noComma : ',' ∉ key
  noEquals : '=' ∉ key

/-- A value that ends where it is written to end. -/
structure PlainValue (value : List Char) : Prop where
  trimmed : Text.Trimmed value
  noComma : ',' ∉ value
  bare : ¬Quoted value

instance (key : List Char) : Decidable (PlainKey key) :=
  decidable_of_iff (key ≠ [] ∧ Text.Trimmed key ∧ ',' ∉ key ∧ '=' ∉ key)
    ⟨fun ⟨nonempty, trimmed, noComma, noEquals⟩ => ⟨nonempty, trimmed, noComma, noEquals⟩,
      fun ⟨nonempty, trimmed, noComma, noEquals⟩ => ⟨nonempty, trimmed, noComma, noEquals⟩⟩

instance (value : List Char) : Decidable (PlainValue value) :=
  decidable_of_iff (Text.Trimmed value ∧ ',' ∉ value ∧ ¬Quoted value)
    ⟨fun ⟨trimmed, noComma, bare⟩ => ⟨trimmed, noComma, bare⟩,
      fun ⟨trimmed, noComma, bare⟩ => ⟨trimmed, noComma, bare⟩⟩

/-- All keys and values end where they are written to end. -/
def Plain (labels : Labels) : Prop :=
  ∀ pair ∈ labels.pairs, PlainKey pair.1.toList ∧ PlainValue pair.2.toList

instance (labels : Labels) : Decidable labels.Plain :=
  inferInstanceAs (Decidable (∀ pair ∈ labels.pairs, _))

/-- A pair as it is written. -/
def pairText (pair : String × String) : List Char := pair.1.toList ++ '=' :: pair.2.toList

/-- The piece is read as the pair, whatever labels have been read before. -/
def ReadAs (piece : List Char) (pair : String × String) : Prop :=
  ∀ labels, addPiece labels piece = .ok (labels.insert pair.1 pair.2)

variable {pair : String × String}

theorem withoutBraces_braced (inner : List Char) :
    withoutBraces ('\x7b' :: (inner ++ ['\x7d'])) = inner := by
  have found : Text.beforeSuffix? ['\x7d'] (inner ++ ['\x7d']) = some inner :=
    Text.beforeSuffix?_eq_some_iff.2 rfl
  rw [withoutBraces, found]
  rfl

theorem withoutQuotes_of_bare {value : List Char} (bare : ¬Quoted value) :
    withoutQuotes value = value := by
  unfold withoutQuotes
  split
  next rest =>
    cases found : Text.beforeSuffix? ['"'] rest with
    | none => rfl
    | some inside =>
      obtain rfl := Text.beforeSuffix?_eq_some_iff.1 found
      refine absurd ⟨?_, rfl, ?_⟩ bare
      · simp
      · rw [← List.cons_append, List.getLast?_concat]
  · rfl

/-- The blank after a comma does not belong to a piece. -/
theorem ReadAs.afterBlank {piece : List Char} (read : ReadAs piece pair) :
    ReadAs (' ' :: piece) pair := by
  intro labels
  rw [← read labels, addPiece, addPiece, Text.trimChars_blank rfl]

theorem trimmed_pairText (key : PlainKey pair.1.toList) (value : PlainValue pair.2.toList) :
    Text.Trimmed (pairText pair) := by
  have last : Text.Trimmed ('=' :: pair.2.toList) := by
    refine ⟨by rintro _ ⟨⟩; rfl, fun c here => ?_⟩
    rw [List.getLast?_cons] at here
    cases ended : pair.2.toList.getLast? with
    | none =>
      rw [ended] at here
      cases here
      rfl
    | some _ =>
      rw [ended] at here
      exact value.trimmed.2 c (ended.trans here)
  exact key.trimmed.append last key.nonempty (List.cons_ne_nil _ _)

/-- A piece with an equals sign in it sets the key before the sign. -/
theorem addPiece_of_cut {piece key value : List Char}
    (cut : Text.cutAt '=' (Text.trimChars piece) = some (key, value))
    (keyed : Text.trimChars key ≠ []) (labels : Labels) :
    addPiece labels piece = .ok (labels.insert (String.ofList (Text.trimChars key))
      (String.ofList (withoutQuotes (Text.trimChars value)))) := by
  have written : (Text.trimChars piece).isEmpty = false := by
    rw [List.isEmpty_eq_false_iff]
    intro blank
    rw [blank] at cut
    cases cut
  simp only [addPiece, written, cut, List.isEmpty_eq_false_iff.2 keyed, Bool.false_eq_true,
    if_false]

/-- The first equals sign of a pair is the one between key and value. -/
theorem readAs_pairText (key : PlainKey pair.1.toList) (value : PlainValue pair.2.toList) :
    ReadAs (pairText pair) pair := by
  intro labels
  have cut : Text.cutAt '=' (Text.trimChars (pairText pair)) =
      some (pair.1.toList, pair.2.toList) := by
    rw [Text.trimChars_of_trimmed (trimmed_pairText key value)]
    exact Text.cutAt_append key.noEquals _
  have sameKey := Text.trimChars_of_trimmed key.trimmed
  rw [addPiece_of_cut cut (by rw [sameKey]; exact key.nonempty), sameKey,
    Text.trimChars_of_trimmed value.trimmed, withoutQuotes_of_bare value.bare,
    String.ofList_toList, String.ofList_toList]

/-- Pieces are read one after the other. -/
theorem foldlM_addPiece {pieces : List (List Char)} {pairs : List (String × String)}
    (read : List.Forall₂ ReadAs pieces pairs) (labels : Labels) :
    pieces.foldlM addPiece labels =
      .ok (pairs.foldl (fun labels (key, value) => labels.insert key value) labels) := by
  induction read generalizing labels with
  | nil => rfl
  | cons here _ ih =>
    rw [List.foldlM_cons, here labels]
    exact ih _

theorem toList_text {labels : Labels} (some : labels.isEmpty = false) :
    labels.text.toList =
      '\x7b' :: ([',', ' '].intercalate (labels.pairs.map pairText) ++ ['\x7d']) := by
  have pieces : (labels.pairs.map fun (key, value) => key ++ "=" ++ value).map String.toList =
      labels.pairs.map pairText := by
    rw [List.map_map]
    refine List.map_congr_left fun pair _ => ?_
    simp [pairText]
  rw [text, some, if_neg Bool.false_ne_true, String.toList_append, String.toList_append,
    String.toList_intercalate, pieces]
  rfl

/-- Pieces without a comma, each of which is read as its pair, are found again between commas; each
but the first stands behind a blank. -/
theorem forall₂_readAs_joined {write : String × String → List Char} {first : String × String}
    {rest : List (String × String)} (free : ∀ pair ∈ first :: rest, ',' ∉ write pair)
    (read : ∀ pair ∈ first :: rest, ReadAs (write pair) pair) :
    List.Forall₂ ReadAs
      (Text.splitChars ',' ([',', ' '].intercalate ((first :: rest).map write)))
      (first :: rest) := by
  have clean : ∀ piece ∈ (first :: rest).map write, ',' ∉ piece := List.forall_mem_map.2 free
  rw [List.map_cons, Text.splitChars_intercalate [' '] _ _ clean (by decide)]
  refine .cons (read first (List.mem_cons_self ..)) ?_
  rw [List.map_map, List.forall₂_map_left_iff, List.forall₂_same]
  exact fun pair listed => (read pair (List.mem_cons_of_mem _ listed)).afterBlank

theorem forall₂_readAs {first : String × String} {rest : List (String × String)}
    (plain : ∀ pair ∈ first :: rest, PlainKey pair.1.toList ∧ PlainValue pair.2.toList) :
    List.Forall₂ ReadAs
      (Text.splitChars ',' ([',', ' '].intercalate ((first :: rest).map pairText)))
      (first :: rest) := by
  refine forall₂_readAs_joined (fun pair listed => ?_) fun pair listed =>
    readAs_pairText (plain pair listed).1 (plain pair listed).2
  obtain ⟨key, value⟩ := plain pair listed
  simp [pairText, key.noComma, value.noComma]

/-- Labels are found again in their text, when all keys and values end where they are written to
end. -/
theorem parse_text {labels : Labels} (plain : labels.Plain) : parse labels.text = .ok labels := by
  cases nothing : labels.isEmpty with
  | true =>
    rw [eq_empty nothing]
    rfl
  | false =>
    obtain ⟨first, rest, pairs⟩ : ∃ first rest, labels.pairs = first :: rest :=
      List.exists_cons_of_ne_nil (List.isEmpty_eq_false_iff.1 nothing)
    have braced : Text.Trimmed labels.text.toList := by
      rw [toList_text nothing, ← List.cons_append]
      refine ⟨by rintro _ ⟨⟩; rfl, ?_⟩
      rw [List.getLast?_concat]
      rintro _ ⟨⟩
      rfl
    rw [Plain, pairs] at plain
    rw [parse, Text.trimChars_of_trimmed braced, toList_text nothing, withoutBraces_braced, pairs,
      foldlM_addPiece (forall₂_readAs plain), ← pairs]
    exact congrArg Except.ok labels.ofPairs_pairs

/-- A value without anything in it, others with an equals sign, a brace and a single quote, and a key
that begins with a brace. -/
def crowded : Labels where
  pairs := [("empty", ""), ("mark", "\""), ("shape", "x\x7d"), ("\x7bzone", "a=b")]
  ascending := by decide

theorem parse_text_crowded : crowded.Plain ∧
    crowded.text = "\x7bempty=, mark=\", shape=x\x7d, \x7bzone=a=b\x7d" ∧
    parse crowded.text = .ok crowded ∧ parse empty.text = .ok empty := by
  have plain : crowded.Plain := by decide +kernel
  have nothing : empty.Plain := List.forall_mem_nil _
  exact ⟨plain, by decide +kernel, parse_text plain, parse_text nothing⟩

end Labels

end Columnar
