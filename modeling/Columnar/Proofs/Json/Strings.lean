import Columnar.Json.Token
import Columnar.Proofs.Text.Octets

/-! Strings between quotes. A string that has been closed is not changed by what follows it, and the
escaped form of a text is read back as the text. -/
namespace Columnar.QuotedString

variable {octets rest : Octets} {s : QuotedString}

theorem scan_unit (rest : Octets) {a b c d : UInt8}
    (hex : [a, b, c, d].all Octets.isHexDigit = true) :
    scan (0x5C :: 0x75 :: a :: b :: c :: d :: rest) =
      put (.unit ([a, b, c, d].foldl (fun n digit => n * 16 + Octets.hexValue digit) 0))
        (scan rest) := by
  rw [scan, if_pos hex]

theorem scan_escape {letter octet : UInt8} (short : shortEscape? letter = some octet) :
    scan (0x5C :: letter :: rest) = put (.octet octet) (scan rest) := by
  have notUnit : letter ≠ 0x75 := by
    rintro rfl
    simp [shortEscape?] at short
  rw [scan]
  · rw [if_neg notUnit, short]
  · intro a b c d more unit
    exact absurd unit notUnit

theorem scan_octet {octet : UInt8} (quote : octet ≠ 0x22) (escape : octet ≠ 0x5C)
    (visible : ¬octet < 0x20) : scan (octet :: rest) = put (.octet octet) (scan rest) := by
  rw [scan]
  · rw [if_neg visible]
  · exact quote
  · intro here
    exact absurd here escape
  · intro _ _ _ _ _ here
    exact absurd here escape
  · intro _ _ here
    exact absurd here escape

private theorem put_append {piece : StringPiece} {tail : Octets}
    (found : put piece (scan octets) = (s, rest)) (closed : s.ending = .closed)
    (ih : ∀ {rest s}, scan octets = (s, rest) → s.ending = .closed →
      scan (octets ++ tail) = (s, rest ++ tail)) :
    put piece (scan (octets ++ tail)) = (s, rest ++ tail) := by
  cases inner : scan octets with
  | mk t more =>
    rw [inner] at found
    cases found
    rw [ih inner closed]
    rfl

/-- A closed string ends where it ended whatever text is added. -/
theorem scan_append (tail : Octets) (found : scan octets = (s, rest))
    (closed : s.ending = .closed) : scan (octets ++ tail) = (s, rest ++ tail) := by
  fun_induction scan octets generalizing s rest with
  | case1 => cases found; simp at closed
  | case2 more => cases found; simp [scan]
  | case3 => cases found; simp at closed
  | case4 a b c d more hex ih => exact (scan_unit _ hex).trans (put_append found closed ih)
  | case5 => cases found; simp at closed
  | case6 => cases found; simp at closed
  | case7 letter more _ _ octet short ih =>
    exact (scan_escape short).trans (put_append found closed ih)
  | case8 => cases found; simp at closed
  | case9 => cases found; simp at closed
  | case10 octet more quote _ _ escape visible ih =>
    have notEscape : octet ≠ 0x5C := by
      rintro rfl
      cases more with
      | nil => simp_all
      | cons letter more => exact escape letter more rfl rfl
    exact (scan_octet quote notEscape visible).trans (put_append found closed ih)

/-- Reading a string never runs past the end of the text. -/
theorem scan_le (octets : Octets) : (scan octets).2.length ≤ octets.length := by
  fun_induction scan octets with
  | case2 more => simp
  | case4 a b c d more hex ih => exact Nat.le_trans ih (by simp; omega)
  | case7 letter more _ _ octet short ih => exact Nat.le_trans ih (by simp; omega)
  | case10 octet more _ _ _ _ _ ih => exact Nat.le_trans ih (by simp)
  | _ => simp

section Escaped

/-- The characters that only a numeric escape can stand for. -/
def isBareControl (c : Char) : Bool :=
  decide (c.toNat < 0x20) && !(['\x08', '\x0c', '\n', '\r', '\t'].contains c)

/-- The pieces of a character as it is written. -/
def charPieces (c : Char) : List StringPiece :=
  if isBareControl c then [.unit c.toNat] else (String.utf8EncodeChar c).map .octet

/-- An octet of a character is the character itself, or greater than every ASCII character. -/
private theorem octet_of_char {c : Char} {octet : UInt8}
    (member : octet ∈ String.utf8EncodeChar c) : octet.toNat = c.toNat ∨ 0x80 ≤ octet.toNat := by
  have code : c.val.toNat = c.toNat := rfl
  unfold String.utf8EncodeChar at member
  simp only [code] at member
  split at member
  next small =>
    rw [List.mem_singleton] at member
    subst member
    left
    simp only [UInt8.toNat_ofNat']
    omega
  next large =>
    right
    split at member
    · simp only [List.mem_cons, List.not_mem_nil, or_false] at member
      rcases member with rfl | rfl <;> simp only [UInt8.toNat_ofNat'] <;> omega
    · split at member
      · simp only [List.mem_cons, List.not_mem_nil, or_false] at member
        rcases member with rfl | rfl | rfl <;> simp only [UInt8.toNat_ofNat'] <;> omega
      · simp only [List.mem_cons, List.not_mem_nil, or_false] at member
        rcases member with rfl | rfl | rfl | rfl <;> simp only [UInt8.toNat_ofNat'] <;> omega

private theorem scan_octets {octets : Octets}
    (plain : ∀ octet ∈ octets, octet ≠ 0x22 ∧ octet ≠ 0x5C ∧ ¬octet < 0x20) :
    scan (octets ++ rest) = (octets.map StringPiece.octet).foldr put (scan rest) := by
  induction octets with
  | nil => rfl
  | cons octet more ih =>
    obtain ⟨quote, escape, visible⟩ := plain octet (by simp)
    rw [List.cons_append, scan_octet quote escape visible,
      ih fun other member => plain other (by simp [member])]
    rfl

/-- Two hexadecimal digits stand for the number they are made from. -/
private theorem control_escape : ∀ n < 0x20,
    [0x30, 0x30, (Nat.digitChar (n / 16)).toNat.toUInt8,
        (Nat.digitChar (n % 16)).toNat.toUInt8].all Octets.isHexDigit = true ∧
      [0x30, 0x30, (Nat.digitChar (n / 16)).toNat.toUInt8,
        (Nat.digitChar (n % 16)).toNat.toUInt8].foldl
          (fun n digit => n * 16 + Octets.hexValue digit) 0 = n := by
  decide

private theorem scan_shortEscape {c : Char} (letter octet : UInt8)
    (escaped : Json.escapeChar c = [0x5C, letter]) (short : shortEscape? letter = some octet)
    (pieces : charPieces c = [.octet octet]) :
    scan (Json.escapeChar c ++ rest) = (charPieces c).foldr put (scan rest) := by
  rw [escaped, pieces]
  exact scan_escape short

/-- A character is scanned as its pieces. -/
theorem scan_escapeChar (c : Char) (rest : Octets) :
    scan (Json.escapeChar c ++ rest) = (charPieces c).foldr put (scan rest) := by
  by_cases quote : c = '"'
  · subst quote
    exact scan_shortEscape 0x22 0x22 rfl rfl rfl
  by_cases backslash : c = '\\'
  · subst backslash
    exact scan_shortEscape 0x5C 0x5C rfl rfl rfl
  by_cases backspace : c = '\x08'
  · subst backspace
    exact scan_shortEscape 0x62 0x08 rfl rfl rfl
  by_cases formFeed : c = '\x0c'
  · subst formFeed
    exact scan_shortEscape 0x66 0x0C rfl rfl rfl
  by_cases newline : c = '\n'
  · subst newline
    exact scan_shortEscape 0x6E 0x0A rfl rfl rfl
  by_cases carriageReturn : c = '\r'
  · subst carriageReturn
    exact scan_shortEscape 0x72 0x0D rfl rfl rfl
  by_cases tab : c = '\t'
  · subst tab
    exact scan_shortEscape 0x74 0x09 rfl rfl rfl
  by_cases control : c.toNat < 0x20
  · have bare : isBareControl c = true := by
      simp [isBareControl, control, backspace, formFeed, newline, carriageReturn, tab]
    have escaped : Json.escapeChar c = [0x5C, 0x75, 0x30, 0x30,
        (Nat.digitChar (c.toNat / 16)).toNat.toUInt8,
        (Nat.digitChar (c.toNat % 16)).toNat.toUInt8] := by
      simp only [Json.escapeChar, quote, backslash, backspace, formFeed, newline, carriageReturn, tab,
        control, if_false, if_true]
      rfl
    obtain ⟨hex, value⟩ := control_escape c.toNat control
    have scanned := scan_unit rest hex
    rw [value] at scanned
    rw [escaped, charPieces, if_pos bare]
    exact scanned
  · have plain : isBareControl c = false := by simp [isBareControl, control]
    have itself : Json.escapeChar c = String.utf8EncodeChar c := by
      simp only [Json.escapeChar, quote, backslash, backspace, formFeed, newline, carriageReturn, tab,
        control, if_false]
    rw [itself, charPieces, plain]
    apply scan_octets
    intro octet member
    have notQuote : c.toNat ≠ 0x22 := fun same => quote (Char.toNat_inj.1 same)
    have notBackslash : c.toNat ≠ 0x5C := fun same => backslash (Char.toNat_inj.1 same)
    have octetOf := octet_of_char member
    refine ⟨?_, ?_, ?_⟩
    · rintro rfl
      exact octetOf.elim (fun same => notQuote same.symm) (by decide)
    · rintro rfl
      exact octetOf.elim (fun same => notBackslash same.symm) (by decide)
    · rw [UInt8.lt_iff_toNat_lt]
      have bound : (0x20 : UInt8).toNat = 0x20 := rfl
      omega

private theorem foldr_put (pieces : List StringPiece) (found : QuotedString) (rest : Octets) :
    pieces.foldr put (found, rest) = (⟨pieces ++ found.pieces, found.ending⟩, rest) := by
  induction pieces with
  | nil => rfl
  | cons piece more ih =>
    rw [List.foldr_cons, ih]
    rfl

/-- The scan of a written text is closed by its quote, whatever follows. -/
theorem scan_escaped (chars : List Char) (rest : Octets) :
    scan (chars.flatMap Json.escapeChar ++ 0x22 :: rest) =
      (⟨chars.flatMap charPieces, .closed⟩, rest) := by
  induction chars with
  | nil => rw [List.flatMap_nil, List.nil_append, scan, List.flatMap_nil]
  | cons c more ih =>
    rw [List.flatMap_cons, List.append_assoc, scan_escapeChar, ih, foldr_put]
    rfl

private theorem decode_octets (octets : Octets) (more : List StringPiece) :
    decode .closed (octets.map .octet ++ more) = (decode .closed more).map (octets ++ ·) := by
  induction octets with
  | nil => cases inner : decode .closed more <;> simp [inner, Except.map]
  | cons octet rest ih =>
    rw [List.map_cons, List.cons_append, decode, ih]
    cases decode .closed more <;> rfl

private theorem decode_charPieces (c : Char) (more : List StringPiece) :
    decode .closed (charPieces c ++ more) =
      (decode .closed more).map (String.utf8EncodeChar c ++ ·) := by
  unfold charPieces
  split
  next bare =>
    have control : c.toNat < 0x20 := by
      simp only [isBareControl, Bool.and_eq_true, decide_eq_true_eq] at bare
      exact bare.1
    rw [List.singleton_append, decode.eq_def]
    dsimp only
    rw [if_neg (by omega), if_pos (by omega), Char.ofNat_toNat]
  next => exact decode_octets ..

/-- The pieces of a written text stand for its characters. -/
theorem decode_escaped (chars : List Char) :
    decode .closed (chars.flatMap charPieces) = .ok (chars.flatMap String.utf8EncodeChar) := by
  induction chars with
  | nil => rfl
  | cons c more ih =>
    rw [List.flatMap_cons, decode_charPieces, ih]
    rfl

/-- The quoted form of a text. -/
def ofText (text : String) : QuotedString := ⟨text.toList.flatMap charPieces, .closed⟩

/-- A text is read back from the string that is written for it. -/
theorem read_ofText (text : String) : (ofText text).read = .ok text := by
  have decoded : decode (ofText text).ending (ofText text).pieces = .ok (Octets.ofString text) := by
    rw [Octets.ofString_eq]
    exact decode_escaped text.toList
  rw [read, decoded]
  simp only [bind, Except.bind, Octets.toString?_ofString]

theorem scan_stringOctets (text : String) (rest : Octets) :
    Json.stringOctets text ++ rest = 0x22 :: (text.toList.flatMap Json.escapeChar ++ 0x22 :: rest) ∧
      scan (text.toList.flatMap Json.escapeChar ++ 0x22 :: rest) = (ofText text, rest) :=
  ⟨by simp [Json.stringOctets], scan_escaped ..⟩

end Escaped

end Columnar.QuotedString
