import Columnar.Json.Draft
import Columnar.Proofs.Json.Numbers
import Columnar.Proofs.Json.Strings

/-! Tokens of a text and of its parts. The bound of a scan never cuts it short; a text whose tokens
are whole keeps them whatever follows it, unless a number runs on. -/
namespace Columnar.JsonToken

open Numeral (Stops)

variable {octets rest more tail : Octets} {token : JsonToken} {first : UInt8}

section Words

private theorem scanWord_append {w : JsonWord} {letters : Octets}
    (found : scanWord w letters octets = (token, more)) (whole : token.isWhole = true)
    (tail : Octets) : scanWord w letters (octets ++ tail) = (token, more ++ tail) := by
  induction letters generalizing octets with
  | nil =>
    cases found
    rfl
  | cons letter letters ih =>
    cases octets with
    | nil =>
      cases found
      cases whole
    | cons octet octets =>
      simp only [scanWord, List.cons_append] at found ⊢
      split at found
      next same => rw [if_pos same, ih found]
      next =>
        cases found
        cases whole

private theorem scanWord_le (w : JsonWord) (letters octets : Octets) :
    (scanWord w letters octets).2.length ≤ octets.length := by
  induction letters generalizing octets with
  | nil => exact Nat.le_refl _
  | cons letter letters ih =>
    cases octets with
    | nil => exact Nat.le_refl _
    | cons octet octets =>
      simp only [scanWord]
      split
      · exact Nat.le_succ_of_le (ih octets)
      · exact Nat.zero_le _

end Words

/-- What the first octet of a token says about the rest of it. -/
private inductive Begins (first : UInt8) : Prop
  | alone (token : JsonToken) (here : ∀ rest, scanOne first rest = (token, rest))
  | string (here : ∀ rest,
      scanOne first rest = (.string (QuotedString.scan rest).1, (QuotedString.scan rest).2))
  | word (w : JsonWord) (letters : Octets)
      (here : ∀ rest, scanOne first rest = scanWord w letters rest)
  | number (here : ∀ rest, scanOne first rest = match Numeral.scan (first :: rest) with
      | (.numeral n, rest) => (.number n, rest)
      | (.broken reading skipping, _) => (.brokenNumber reading skipping, []))
  | stray (here : ∀ rest, scanOne first rest = (.stray, []))

private theorem begins (first : UInt8) : Begins first := by
  by_cases openList : first = 0x5B
  · exact .alone .openList fun rest => by rw [openList]; rfl
  by_cases closeList : first = 0x5D
  · exact .alone .closeList fun rest => by rw [closeList]; rfl
  by_cases openObject : first = 0x7B
  · exact .alone .openObject fun rest => by rw [openObject]; rfl
  by_cases closeObject : first = 0x7D
  · exact .alone .closeObject fun rest => by rw [closeObject]; rfl
  by_cases comma : first = 0x2C
  · exact .alone .comma fun rest => by rw [comma]; rfl
  by_cases colon : first = 0x3A
  · exact .alone .colon fun rest => by rw [colon]; rfl
  by_cases quote : first = 0x22
  · exact .string fun rest => by rw [quote]; rfl
  by_cases null : first = 0x6E
  · exact .word .null (Json.ascii "ull".toList) fun rest => by rw [null]; rfl
  by_cases true_ : first = 0x74
  · exact .word .true (Json.ascii "rue".toList) fun rest => by rw [true_]; rfl
  by_cases false_ : first = 0x66
  · exact .word .false (Json.ascii "alse".toList) fun rest => by rw [false_]; rfl
  by_cases digit : first = 0x2D ∨ Octets.isDigit first
  · apply Begins.number
    intro rest
    rcases scanned : Numeral.scan (first :: rest) with ⟨n | ⟨reading, skipping⟩, left⟩ <;>
      simp [scanOne, openList, closeList, openObject, closeObject, comma, colon, quote, null, true_,
        false_, digit, scanned]
  · apply Begins.stray
    intro rest
    rw [scanOne, if_neg openList, if_neg closeList, if_neg openObject, if_neg closeObject,
      if_neg comma, if_neg colon, if_neg quote, if_neg null, if_neg true_, if_neg false_,
      if_neg digit]

/-- A token that is whole is not changed by what follows, unless it is a number that runs on. -/
private theorem scanOne_append (found : scanOne first rest = (token, more))
    (whole : token.isWhole = true) (stops : Stops tail) :
    scanOne first (rest ++ tail) = (token, more ++ tail) := by
  cases begins first with
  | alone other here =>
    rw [here] at found ⊢
    cases found
    rfl
  | string here =>
    rw [here] at found ⊢
    cases found
    have closed : (QuotedString.scan rest).1.ending = .closed := by simpa [isWhole] using whole
    rw [QuotedString.scan_append tail rfl closed]
  | word w letters here =>
    rw [here] at found ⊢
    exact scanWord_append found whole tail
  | number here =>
    rw [here] at found ⊢
    cases scanned : Numeral.scan (first :: rest) with
    | mk number left =>
      rw [scanned] at found
      cases number with
      | broken reading skipping =>
        cases found
        cases whole
      | numeral n =>
        cases found
        have same := Numeral.scan_append scanned fun _ => stops
        rw [List.cons_append] at same
        rw [same]
  | stray here =>
    rw [here] at found
    cases found
    cases whole

/-- Scanning a token never runs past the end of the text. -/
private theorem scanOne_le (first : UInt8) (rest : Octets) :
    (scanOne first rest).2.length ≤ rest.length := by
  cases begins first with
  | alone other here => exact Nat.le_of_eq (by rw [here])
  | string here => rw [here]; exact QuotedString.scan_le rest
  | word w letters here => rw [here]; exact scanWord_le w letters rest
  | number here =>
    have bound : (Numeral.scan (first :: rest)).2.length ≤ rest.length := Numeral.scan_le
    rw [here]
    split
    next n left scanned =>
      rw [scanned] at bound
      exact bound
    next => exact Nat.zero_le _
  | stray here => rw [here]; exact Nat.zero_le _

/-- A longer bound finds no more tokens. -/
private theorem scanUpTo_eq (bound other : Nat) (octets : Octets) (enough : octets.length ≤ bound)
    (more : octets.length ≤ other) : scanUpTo bound octets = scanUpTo other octets := by
  induction bound generalizing octets other with
  | zero =>
    have none : octets = [] := List.eq_nil_of_length_eq_zero (by omega)
    subst none
    cases other <;> rfl
  | succ bound ih =>
    cases octets with
    | nil => cases other <;> rfl
    | cons first rest =>
      cases other with
      | zero => simp at more
      | succ other =>
        have left : rest.length ≤ bound := by simpa using enough
        have right : rest.length ≤ other := by simpa using more
        have shorter := scanOne_le first rest
        simp only [scanUpTo]
        rw [ih other rest left right, ih other (scanOne first rest).2 (by omega) (by omega)]

theorem scan_blank (blank : isBlank first = true) : scan (first :: rest) = scan rest := by
  simp [scan, scanUpTo, blank]

/-- After a whole token the scan goes on with what follows it. -/
theorem scan_whole (notBlank : isBlank first = false) (found : scanOne first rest = (token, more))
    (whole : token.isWhole = true) : scan (first :: rest) = token :: scan more := by
  have shorter := scanOne_le first rest
  rw [found] at shorter
  simp only [scan, List.length_cons, scanUpTo, notBlank, found, whole, if_true]
  rw [scanUpTo_eq rest.length more.length more shorter (Nat.le_refl _)]
  rfl

/-- A token that breaks off is the last one. -/
theorem scan_broken (notBlank : isBlank first = false) (found : scanOne first rest = (token, more))
    (broken : token.isWhole = false) : scan (first :: rest) = [token] := by
  simp [scan, scanUpTo, notBlank, found, broken]

/-- The tokens of a text whose tokens are whole stay what they are when more text follows. -/
theorem scan_append (octets : Octets) (whole : ∀ token ∈ scan octets, token.isWhole = true)
    (stops : Stops tail) : scan (octets ++ tail) = scan octets ++ scan tail := by
  match octets with
  | [] => rfl
  | first :: rest =>
    by_cases blank : isBlank first = true
    · rw [scan_blank blank] at whole ⊢
      rw [List.cons_append, scan_blank blank]
      exact scan_append rest whole stops
    · rw [Bool.not_eq_true] at blank
      cases found : scanOne first rest with
      | mk token more =>
        have shorter : more.length ≤ rest.length := by
          have bound := scanOne_le first rest
          rwa [found] at bound
        by_cases isWhole : token.isWhole = true
        · rw [scan_whole blank found isWhole] at whole ⊢
          rw [List.cons_append, scan_whole blank (scanOne_append found isWhole stops) isWhole,
            scan_append more (fun other member => whole other (by simp [member])) stops]
          rfl
        · rw [Bool.not_eq_true] at isWhole
          rw [scan_broken blank found isWhole] at whole
          rw [whole token (by simp)] at isWhole
          cases isWhole
termination_by octets.length

section Written

theorem scan_openList (rest : Octets) : scan (0x5B :: rest) = .openList :: scan rest :=
  scan_whole rfl rfl rfl

theorem scan_closeList (rest : Octets) : scan (0x5D :: rest) = .closeList :: scan rest :=
  scan_whole rfl rfl rfl

theorem scan_openObject (rest : Octets) : scan (0x7B :: rest) = .openObject :: scan rest :=
  scan_whole rfl rfl rfl

theorem scan_closeObject (rest : Octets) : scan (0x7D :: rest) = .closeObject :: scan rest :=
  scan_whole rfl rfl rfl

theorem scan_comma (rest : Octets) : scan (0x2C :: rest) = .comma :: scan rest :=
  scan_whole rfl rfl rfl

theorem scan_colon (rest : Octets) : scan (0x3A :: rest) = .colon :: scan rest :=
  scan_whole rfl rfl rfl

/-- The text of a word. -/
def wordOctets : JsonWord → Octets
  | .null => Json.ascii "null".toList
  | .true => Json.ascii "true".toList
  | .false => Json.ascii "false".toList

theorem scan_word (w : JsonWord) (rest : Octets) :
    scan (wordOctets w ++ rest) = .word w :: scan rest := by
  cases w <;> exact scan_whole rfl rfl rfl

theorem scan_stringOctets (text : String) (rest : Octets) :
    scan (Json.stringOctets text ++ rest) = .string (QuotedString.ofText text) :: scan rest := by
  obtain ⟨opened, scanned⟩ := QuotedString.scan_stringOctets text rest
  rw [opened]
  refine scan_whole rfl ?_ rfl
  show (JsonToken.string (QuotedString.scan _).1, (QuotedString.scan _).2) = _
  rw [scanned]

/-- The octets that are blank or begin a token other than a number. -/
private def otherBeginnings : List UInt8 :=
  [0x20, 0x0A, 0x0D, 0x09, 0x5B, 0x5D, 0x7B, 0x7D, 0x2C, 0x3A, 0x22, 0x6E, 0x74, 0x66]

private theorem other_of_starts (starts : first = 0x2D ∨ Octets.isDigit first = true) :
    ∀ octet ∈ otherBeginnings, first ≠ octet := by
  have outside : (otherBeginnings.all fun octet =>
      decide (octet.toNat < 0x2D ∨ 0x39 < octet.toNat)) = true := by
    decide
  rintro octet listed rfl
  have apart := of_decide_eq_true (List.all_eq_true.1 outside first listed)
  rcases starts with rfl | digit
  · exact absurd apart (by decide)
  · simp only [Octets.isDigit, Bool.and_eq_true, decide_eq_true_eq, UInt8.le_iff_toNat_le] at digit
    have low : (0x30 : UInt8).toNat = 0x30 := rfl
    have high : (0x39 : UInt8).toNat = 0x39 := rfl
    omega

private theorem number_first (starts : first = 0x2D ∨ Octets.isDigit first = true) :
    isBlank first = false ∧ ∀ rest, scanOne first rest = match Numeral.scan (first :: rest) with
      | (.numeral n, rest) => (.number n, rest)
      | (.broken reading skipping, _) => (.brokenNumber reading skipping, []) := by
  have other := other_of_starts starts
  simp only [otherBeginnings, List.forall_mem_cons] at other
  constructor
  · simp [isBlank, other]
  · intro rest
    rcases scanned : Numeral.scan (first :: rest) with ⟨n | ⟨reading, skipping⟩, left⟩ <;>
      simp [scanOne, other, starts, scanned]

/-- A numeral is one token where no number runs on after it. -/
theorem scan_numeral {n : Numeral} (wellFormed : n.WellFormed) (stops : Stops rest) :
    scan (n.octets ++ rest) = .number n :: scan rest := by
  obtain ⟨first, more, spelled, starts⟩ : ∃ first more, n.octets = first :: more ∧
      (first = 0x2D ∨ Octets.isDigit first = true) := by
    unfold Numeral.octets Numeral.signOctets
    cases n.negative with
    | true => exact ⟨0x2D, _, rfl, .inl rfl⟩
    | false =>
      cases whole : n.whole with
      | nil => exact absurd whole wellFormed.wholeSome
      | cons digit digits =>
        have digits := wellFormed.whole
        rw [whole, List.all_cons, Bool.and_eq_true] at digits
        exact ⟨digit, _, rfl, .inr digits.1⟩
  obtain ⟨notBlank, here⟩ := number_first starts
  have scanned := Numeral.scan_octets wellFormed stops
  rw [spelled, List.cons_append] at scanned ⊢
  refine scan_whole notBlank ?_ rfl
  rw [here, scanned]

end Written

end Columnar.JsonToken
