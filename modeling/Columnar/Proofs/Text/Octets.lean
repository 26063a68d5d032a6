import Columnar.Text.Octets

/-! Texts and their octets. Octets that are the form of a text are closed under concatenation, break
nowhere, and reading them gives the text they were made from. -/
namespace Columnar.Octets

/-- Octets that some text is written as. -/
def IsText (octets : Octets) : Prop := ∃ text : String, ofString text = octets

private theorem toList_loop (bytes : ByteArray) (index : Nat) (done : List UInt8) :
    ByteArray.toList.loop bytes index done = done.reverse ++ bytes.data.toList.drop index := by
  fun_induction ByteArray.toList.loop bytes index done with
  | case1 index done inside ih =>
    have bound : index < bytes.data.toList.length := by simpa using! inside
    have here : bytes.get! index = bytes.data.toList[index] := by
      have inArray : index < bytes.data.size := bound
      rw [ByteArray.get!, getElem!_pos bytes.data index inArray, Array.getElem_toList]
    rw [ih, here, List.drop_eq_getElem_cons bound]
    simp
  | case2 index done outside =>
    have bound : bytes.data.toList.length ≤ index := by simpa using! outside
    simp [List.drop_eq_nil_of_le bound]

private theorem toList_eq (bytes : ByteArray) : bytes.toList = bytes.data.toList := by
  simp [ByteArray.toList, toList_loop]

/-- A text is written character by character. -/
theorem ofString_eq (text : String) :
    ofString text = text.toList.flatMap String.utf8EncodeChar := by
  rw [ofString, String.toUTF8, toList_eq, ← String.utf8Encode_toList, List.utf8Encode,
    List.toList_data_toByteArray]

/-- Reading the octets of a text gives the text. -/
theorem toString?_ofString (text : String) : toString? (ofString text) = some text := by
  have bytes : (⟨(ofString text).toArray⟩ : ByteArray) = text.toByteArray := by
    rw [ofString, String.toUTF8, toList_eq]
  rw [toString?, bytes, String.fromUTF8?, dif_pos text.isValidUTF8]
  rfl

theorem toText_ofString (text : String) : toText (ofString text) = text := by
  rw [toText, toString?_ofString]

/-- Nothing is lost when octets of a text are taken as text. -/
theorem ofString_toText {octets : Octets} (isText : IsText octets) :
    ofString (toText octets) = octets := by
  obtain ⟨text, rfl⟩ := isText
  rw [toText_ofString]

theorem isText_chars (chars : List Char) : IsText (chars.flatMap String.utf8EncodeChar) :=
  ⟨String.ofList chars, by rw [ofString_eq, String.toList_ofList]⟩

theorem isText_nil : IsText [] := isText_chars []

theorem isText_append {first second : Octets} (left : IsText first) (right : IsText second) :
    IsText (first ++ second) := by
  obtain ⟨text, rfl⟩ := left
  obtain ⟨more, rfl⟩ := right
  refine ⟨text ++ more, ?_⟩
  simp [ofString_eq, String.toList_append]

theorem isText_flatMap {α : Type} {write : α → Octets} {items : List α}
    (each : ∀ item ∈ items, IsText (write item)) : IsText (items.flatMap write) := by
  induction items with
  | nil => exact isText_nil
  | cons item rest ih =>
    rw [List.forall_mem_cons] at each
    exact isText_append each.1 (ih each.2)

/-- An ASCII octet is a text of one character. -/
theorem isText_ascii {octet : UInt8} (small : octet < 0x80) : IsText [octet] := by
  have bound : octet.toNat < 0x80 := by simpa [UInt8.lt_iff_toNat_lt] using small
  have valid : octet.toNat.isValidChar := .inl (by omega)
  have encoded : String.utf8EncodeChar (Char.ofNat octet.toNat) = [octet] := by
    have code : (Char.ofNat octet.toNat).val.toNat = octet.toNat := by
      rw [Char.ofNat, dif_pos valid]
      rfl
    have fits : octet.toNat ≤ 127 := by omega
    simp [String.utf8EncodeChar, code, fits]
  exact encoded ▸ by simpa using isText_chars [Char.ofNat octet.toNat]

theorem isText_cons {octet : UInt8} {rest : Octets} (small : octet < 0x80) (text : IsText rest) :
    IsText (octet :: rest) :=
  isText_append (isText_ascii small) text

/-- No octet of a character outside ASCII is an ASCII octet. -/
theorem le_of_mem_encodeChar {c : Char} (wide : 0x80 ≤ c.val.toNat) :
    ∀ octet ∈ String.utf8EncodeChar c, 0x80 ≤ octet.toNat := by
  rw [String.utf8EncodeChar, if_neg (Nat.not_le.2 wide)]
  repeat' split
  all_goals
    simp only [List.forall_mem_cons, UInt8.toNat_ofNat', List.not_mem_nil, false_imp_iff,
      implies_true, and_true]
    omega

/-- An ASCII octet of a character is all of it. -/
theorem encodeChar_eq_of_mem {c : Char} {octet : UInt8} (small : octet < 0x80)
    (member : octet ∈ String.utf8EncodeChar c) : String.utf8EncodeChar c = [octet] := by
  have bound : octet.toNat < 0x80 := by simpa [UInt8.lt_iff_toNat_lt] using small
  have narrow : c.val.toNat ≤ 127 := Nat.le_of_not_lt fun wide =>
    absurd (le_of_mem_encodeChar wide octet member) (Nat.not_le.2 bound)
  rw [String.utf8EncodeChar, if_pos narrow] at member ⊢
  rw [List.mem_singleton.1 member]

section Breaks

variable {octet : UInt8} {begin length missing : Nat} {low high : UInt8} {rest : Octets}

theorem leading_of_one (small : octet.toNat < 0x80) :
    leading octet = some (0, 0x80, 0xBF, octet.toNat) := by
  rw [leading, if_pos (by simpa [UInt8.lt_iff_toNat_lt] using small)]

theorem leading_of_two (least : 0xC2 ≤ octet.toNat) (most : octet.toNat < 0xE0) :
    leading octet = some (1, 0x80, 0xBF, octet.toNat - 0xC0) := by
  simp only [leading, UInt8.lt_iff_toNat_lt, UInt8.reduceToNat]
  rw [if_neg (by omega), if_neg (by omega), if_pos most]

theorem leading_of_three (least : 0xE0 ≤ octet.toNat) (most : octet.toNat < 0xF0) :
    leading octet = some (2, if octet = 0xE0 then 0xA0 else 0x80,
      if octet = 0xED then 0x9F else 0xBF, octet.toNat - 0xE0) := by
  simp only [leading, UInt8.lt_iff_toNat_lt, UInt8.reduceToNat]
  rw [if_neg (by omega), if_neg (by omega), if_neg (by omega), if_pos most]

theorem leading_of_four (least : 0xF0 ≤ octet.toNat) (most : octet.toNat < 0xF5) :
    leading octet = some (3, if octet = 0xF0 then 0x90 else 0x80,
      if octet = 0xF4 then 0x8F else 0xBF, octet.toNat - 0xF0) := by
  simp only [leading, UInt8.lt_iff_toNat_lt, UInt8.reduceToNat]
  rw [if_neg (by omega), if_neg (by omega), if_neg (by omega), if_neg (by omega), if_pos most]

/-- The first octet of a character that has more of them. -/
theorem breakFrom_leading {more bits : Nat} {least most : UInt8}
    (led : leading octet = some (more + 1, least, most, bits)) :
    breakFrom begin length 0 low high (octet :: rest) =
      breakFrom begin 1 (more + 1) least most rest := by
  rw [breakFrom, if_pos rfl, led]
  rfl

/-- An octet within the bounds is one of those that were missing. -/
theorem breakFrom_missing (least : low.toNat ≤ octet.toNat) (most : octet.toNat ≤ high.toNat) :
    breakFrom begin length (missing + 1) low high (octet :: rest) =
      if missing = 0 then breakFrom (begin + length + 1) 0 0 0x80 0xBF rest
      else breakFrom begin (length + 1) missing 0x80 0xBF rest := by
  have within : low ≤ octet ∧ octet ≤ high := by
    simpa only [UInt8.le_iff_toNat_le] using And.intro least most
  rw [breakFrom, if_neg (Nat.succ_ne_zero _), if_pos within]
  simp

theorem toNat_continuing (bits : Nat) : (UInt8.ofNat (bits % 64 + 128)).toNat = bits % 64 + 128 := by
  simp only [UInt8.toNat_ofNat']
  omega

/-- Six bits of a character, after its second octet or as its second octet where all of them may
come. -/
theorem breakFrom_continuing (bits : Nat) :
    breakFrom begin length (missing + 1) 0x80 0xBF (UInt8.ofNat (bits % 64 + 128) :: rest) =
      if missing = 0 then breakFrom (begin + length + 1) 0 0 0x80 0xBF rest
      else breakFrom begin (length + 1) missing 0x80 0xBF rest := by
  apply breakFrom_missing
  all_goals
    rw [toNat_continuing]
    simp only [UInt8.reduceToNat]
    omega

/-- A character is no break, wherever it stands. -/
theorem breakFrom_encodeChar (begin : Nat) (low high : UInt8) (c : Char) (rest : Octets) :
    ∃ later low' high', breakFrom begin 0 0 low high (String.utf8EncodeChar c ++ rest) =
      breakFrom later 0 0 low' high' rest := by
  have valid := c.valid
  simp only [UInt32.isValidChar, Nat.isValidChar] at valid
  simp only [String.utf8EncodeChar]
  generalize c.val.toNat = code at valid
  split
  next one =>
    have first : (UInt8.ofNat code).toNat = code := by
      simp only [UInt8.toNat_ofNat']
      omega
    rw [List.singleton_append, breakFrom, if_pos rfl, leading_of_one (by omega)]
    exact ⟨_, _, _, rfl⟩
  next notOne =>
    split
    next two =>
      have first : (UInt8.ofNat (code / 64 % 32 + 192)).toNat = code / 64 + 192 := by
        simp only [UInt8.toNat_ofNat']
        omega
      rw [List.cons_append, List.singleton_append,
        breakFrom_leading (leading_of_two (by omega) (by omega)), breakFrom_continuing, if_pos rfl]
      exact ⟨_, _, _, rfl⟩
    next notTwo =>
      split
      next three =>
        have first : (UInt8.ofNat (code / 4096 % 16 + 224)).toNat = code / 4096 + 224 := by
          simp only [UInt8.toNat_ofNat']
          omega
        simp only [List.cons_append, List.nil_append]
        rw [breakFrom_leading (leading_of_three (by omega) (by omega)), breakFrom_missing,
          if_neg (by decide), breakFrom_continuing, if_pos rfl]
        · exact ⟨_, _, _, rfl⟩
        all_goals
          simp only [toNat_continuing, apply_ite UInt8.toNat, ← UInt8.toNat_inj, first,
            UInt8.reduceToNat]
          split <;> omega
      next notThree =>
        have first : (UInt8.ofNat (code / 262144 % 8 + 240)).toNat = code / 262144 + 240 := by
          simp only [UInt8.toNat_ofNat']
          omega
        simp only [List.cons_append, List.nil_append]
        rw [breakFrom_leading (leading_of_four (by omega) (by omega)), breakFrom_missing,
          if_neg (by decide), breakFrom_continuing, if_neg (by decide), breakFrom_continuing,
          if_pos rfl]
        · exact ⟨_, _, _, rfl⟩
        all_goals
          simp only [toNat_continuing, apply_ite UInt8.toNat, ← UInt8.toNat_inj, first,
            UInt8.reduceToNat]
          split <;> omega

/-- Octets that a text is written as break nowhere. -/
theorem textBreak?_of_isText {octets : Octets} (isText : IsText octets) :
    octets.textBreak? = none := by
  obtain ⟨text, rfl⟩ := isText
  have unbroken : ∀ (chars : List Char) (begin : Nat) (low high : UInt8),
      breakFrom begin 0 0 low high (chars.flatMap String.utf8EncodeChar) = none := by
    intro chars
    induction chars with
    | nil => exact fun _ _ _ => rfl
    | cons c rest ih =>
      intro begin low high
      obtain ⟨later, low', high', same⟩ :=
        breakFrom_encodeChar begin low high c (rest.flatMap String.utf8EncodeChar)
      rw [List.flatMap_cons, same, ih]
  rw [textBreak?, ofString_eq]
  exact unbroken ..

end Breaks

end Columnar.Octets
