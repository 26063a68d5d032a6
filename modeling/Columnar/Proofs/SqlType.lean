import Columnar.Proofs.Text.Pieces
import Columnar.SqlType

/-! Declared types with arguments. A length or a precision behind the name does not change the type,
whatever the case of the letters and the blanks around. But nothing behind the arguments is looked at, so
that an integer type declared with a length and then as unsigned is taken for a signed one. -/
namespace Columnar

namespace Text

theorem toNat_toUpper {c : Char} (low : 97 ≤ c.toNat) (high : c.toNat ≤ 122) :
    c.toUpper.toNat = c.toNat - 32 := by
  have small : 'a'.val ≤ c.val ∧ c.val ≤ 'z'.val :=
    ⟨UInt32.le_iff_toNat_le.2 low, UInt32.le_iff_toNat_le.2 high⟩
  have code : c.val.toNat = c.toNat := rfl
  have shift : ('A'.val - 'a'.val).toNat = 2 ^ 32 - 32 := by decide
  obtain ⟨valid, capital⟩ : ∃ valid, c.toUpper = ⟨c.val + ('A'.val - 'a'.val), valid⟩ :=
    ⟨_, dif_pos small⟩
  rw [capital]
  change (c.val + ('A'.val - 'a'.val)).toNat = _
  rw [UInt32.toNat_add, shift]
  omega

/-- A letter is no blank, small or capital. -/
theorem isBlank_toUpper (c : Char) : isBlank c.toUpper = isBlank c := by
  by_cases small : 97 ≤ c.toNat ∧ c.toNat ≤ 122
  · have code := toNat_toUpper small.1 small.2
    have capital : Printed c.toUpper := ⟨by omega, by omega⟩
    have letter : Printed c := ⟨by omega, by omega⟩
    rw [capital.not_blank, letter.not_blank]
  · have other : ¬('a'.val ≤ c.val ∧ c.val ≤ 'z'.val) := fun ⟨low, high⟩ =>
      small ⟨UInt32.le_iff_toNat_le.1 low, UInt32.le_iff_toNat_le.1 high⟩
    exact congrArg isBlank (dif_neg other)

theorem trimChars_map_toUpper (text : List Char) :
    trimChars (text.map Char.toUpper) = (trimChars text).map Char.toUpper := by
  have blank : isBlank ∘ Char.toUpper = isBlank := funext isBlank_toUpper
  rw [trimChars, trimChars, trimEnd, trimEnd, List.dropWhile_map, blank, ← List.map_reverse,
    List.dropWhile_map, blank, ← List.map_reverse]

end Text

namespace SqlType

/-- The text is the name in any case of its letters. -/
def Spells (text name : String) : Prop :=
  text.toList.map Char.toUpper = name.toList

instance (text name : String) : Decidable (Spells text name) :=
  inferInstanceAs (Decidable (_ = _))

/-- The blanks around a declaration and behind its name. -/
structure Spacing where
  before : List Char
  behindName : List Char
  after : List Char
  before_blank : ∀ c ∈ before, Text.isBlank c = true
  behindName_blank : ∀ c ∈ behindName, Text.isBlank c = true
  after_blank : ∀ c ∈ after, Text.isBlank c = true

/-- A name and what follows it, with blanks. -/
def Spacing.declaration (spacing : Spacing) (base ending : String) : String :=
  String.ofList (spacing.before ++ (base.toList ++ spacing.behindName ++ ending.toList) ++
    spacing.after)

/-- What all names of the table have in common. -/
structure IsName (d : Declaration) (name : String) : Prop where
  nonempty : name.toList ≠ []
  trimmed : Text.Trimmed name.toList
  noArguments : '(' ∉ name.toList
  unmarked : Text.beforeSuffix? unsignedMark name.toList = none
  found : (declarations.find? fun d => d.names.contains name).map (fun d => (d.signed, d.unsigned)) =
    some (d.signed, d.unsigned)

theorem isName_of_listed {d : Declaration} (listed : d ∈ declarations) {name : String}
    (named : name ∈ d.names) : IsName d name := by
  have each : ∀ d ∈ declarations, ∀ name ∈ d.names,
      name.toList ≠ [] ∧ Text.Trimmed name.toList ∧ '(' ∉ name.toList ∧
        Text.beforeSuffix? unsignedMark name.toList = none ∧
        (declarations.find? fun d => d.names.contains name).map
          (fun d => (d.signed, d.unsigned)) = some (d.signed, d.unsigned) := by
    decide +kernel
  obtain ⟨nonempty, trimmed, noArguments, unmarked, found⟩ := each d listed name named
  exact ⟨nonempty, trimmed, noArguments, unmarked, found⟩

section Reading

variable {d : Declaration} {name base ending : String} {kind : Kind} {scan : ScanType}
  {nullable : Bool}

/-- Blanks in capitals. -/
def Spacing.gap (spacing : Spacing) : List Char := spacing.behindName.map Char.toUpper

theorem Spacing.gap_blank (spacing : Spacing) : ∀ c ∈ spacing.gap, Text.isBlank c = true := by
  rw [gap, List.forall_mem_map]
  intro c member
  rw [Text.isBlank_toUpper]
  exact spacing.behindName_blank c member

/-- Nothing is seen of the blanks around a declaration. -/
theorem withoutArguments_declaration (spacing : Spacing) (spelled : Spells base name) :
    withoutArguments (spacing.declaration base ending) =
      Text.trimChars ((Text.trimChars (name.toList ++ spacing.gap ++
        ending.toList.map Char.toUpper)).takeWhile (· != '(')) := by
  have inside : Text.trimChars (spacing.declaration base ending).toList =
      Text.trimChars (base.toList ++ spacing.behindName ++ ending.toList) := by
    rw [Spacing.declaration, String.toList_ofList]
    exact Text.trimChars_between spacing.before_blank spacing.after_blank _
  rw [withoutArguments, inside, ← Text.trimChars_map_toUpper, List.map_append, List.map_append,
    spelled, Spacing.gap]

theorem takeWhile_behindName (isName : IsName d name) {blanks : List Char}
    (blank : ∀ c ∈ blanks, Text.isBlank c = true) :
    (name.toList ++ blanks).takeWhile (· != '(') = name.toList ++ blanks := by
  refine List.takeWhile_eq_self_iff.2 fun c member => ?_
  have other : c ≠ '(' := by
    rintro rfl
    rcases List.mem_append.1 member with inName | behind
    · exact isName.noArguments inName
    · exact absurd (blank _ behind) (by decide)
  exact bne_iff_ne.2 other

theorem trimChars_behindName (isName : IsName d name) (spacing : Spacing) :
    Text.trimChars (name.toList ++ spacing.gap) = name.toList := by
  have trimmed := Text.trimChars_between (List.forall_mem_nil _) spacing.gap_blank name.toList
  rwa [List.nil_append, Text.trimChars_of_trimmed isName.trimmed] at trimmed

/-- A text from a name to a character that is no blank. -/
theorem trimmed_from_name (isName : IsName d name) (inner : List Char) {last : Char}
    (visible : Text.isBlank last = false) : Text.Trimmed (name.toList ++ (inner ++ [last])) := by
  refine ⟨?_, fun c ends => ?_⟩
  · rw [List.head?_append_of_ne_nil _ isName.nonempty]
    exact isName.trimmed.1
  · rw [← List.append_assoc, List.getLast?_concat] at ends
    cases ends
    exact visible

/-- The name is all that is looked at when it has no ending. -/
theorem withoutArguments_bare (isName : IsName d name) (spelled : Spells base name)
    (spacing : Spacing) : withoutArguments (spacing.declaration base "") = name.toList := by
  have all := takeWhile_behindName isName (List.forall_mem_nil _)
  rw [List.append_nil] at all
  rw [withoutArguments_declaration spacing spelled]
  simp only [String.toList_empty, List.map_nil, List.append_nil]
  rw [trimChars_behindName isName, all, Text.trimChars_of_trimmed isName.trimmed]

/-- The name is all that is looked at when arguments follow, whatever follows them. -/
theorem withoutArguments_opened (isName : IsName d name) (spelled : Spells base name)
    (spacing : Spacing) {inner : List Char} {last : Char} (visible : Text.isBlank last = false)
    (opened : ending.toList.map Char.toUpper = '(' :: (inner ++ [last])) :
    withoutArguments (spacing.declaration base ending) = name.toList := by
  have trimmed := trimmed_from_name isName (spacing.gap ++ '(' :: inner) visible
  have joined : name.toList ++ spacing.gap ++ '(' :: (inner ++ [last]) =
      name.toList ++ (spacing.gap ++ '(' :: inner ++ [last]) := by
    simp only [List.append_assoc, List.cons_append]
  have cut : (name.toList ++ spacing.gap ++ '(' :: (inner ++ [last])).takeWhile (· != '(') =
      name.toList ++ spacing.gap := by
    rw [List.takeWhile_append, takeWhile_behindName isName spacing.gap_blank, if_pos rfl]
    simp
  rw [withoutArguments_declaration spacing spelled, opened, joined,
    Text.trimChars_of_trimmed trimmed, ← joined, cut, trimChars_behindName isName]

/-- The mark of unsigned types stays where no arguments stand before it. -/
theorem withoutArguments_marked (isName : IsName d name) (spelled : Spells base name)
    (spacing : Spacing) :
    withoutArguments (spacing.declaration base " UNSIGNED") =
      name.toList ++ spacing.gap ++ unsignedMark := by
  have capitals : " UNSIGNED".toList.map Char.toUpper = unsignedMark := by decide
  have parts : unsignedMark = " UNSIGNE".toList ++ ['D'] := by decide
  have trimmed : Text.Trimmed (name.toList ++ spacing.gap ++ unsignedMark) := by
    have visible : Text.isBlank 'D' = false := by decide
    have ends := trimmed_from_name isName (spacing.gap ++ " UNSIGNE".toList) visible
    rwa [List.append_assoc, ← parts, ← List.append_assoc] at ends
  have all : (name.toList ++ spacing.gap ++ unsignedMark).takeWhile (· != '(') =
      name.toList ++ spacing.gap ++ unsignedMark := by
    rw [List.takeWhile_append, takeWhile_behindName isName spacing.gap_blank, if_pos rfl]
    rfl
  rw [withoutArguments_declaration spacing spelled, capitals, Text.trimChars_of_trimmed trimmed,
    all, Text.trimChars_of_trimmed trimmed]

/-- Neither a name nor blanks behind it end like the mark. -/
theorem unmarked_behindName (isName : IsName d name) (spacing : Spacing) :
    Text.beforeSuffix? unsignedMark (name.toList ++ spacing.gap) = none := by
  rcases List.eq_nil_or_concat spacing.gap with none | ⟨others, last, gap⟩
  · rw [none, List.append_nil]
    exact isName.unmarked
  · rw [Option.eq_none_iff_forall_ne_some]
    intro text found
    have blank : Text.isBlank last = true := spacing.gap_blank last (by simp [gap])
    have ends := congrArg List.getLast? (Text.beforeSuffix?_eq_some_iff.1 found)
    have mark : unsignedMark = " UNSIGNE".toList ++ ['D'] := by decide
    rw [gap, mark, List.concat_eq_append, ← List.append_assoc, ← List.append_assoc,
      List.getLast?_concat, List.getLast?_concat] at ends
    cases ends
    exact absurd blank (by decide)

theorem withoutMark_of_unmarked {text : List Char}
    (unmarked : Text.beforeSuffix? unsignedMark text = none) (steps : Nat) :
    withoutMark.go steps text = text := by
  cases steps with
  | zero => rfl
  | succ steps => rw [withoutMark.go, unmarked]

/-- One mark is taken off. -/
theorem withoutMark_marked {text : List Char}
    (unmarked : Text.beforeSuffix? unsignedMark text = none) :
    withoutMark (text ++ unsignedMark) = text := by
  have marked : Text.beforeSuffix? unsignedMark (text ++ unsignedMark) = some text :=
    Text.beforeSuffix?_eq_some_iff.2 rfl
  have length : (text ++ unsignedMark).length = text.length + 8 + 1 := by
    rw [List.length_append]
    rfl
  rw [withoutMark, length, withoutMark.go, marked]
  exact withoutMark_of_unmarked unmarked _

/-- A declaration of which a name is seen is that of the name, unsigned if a mark is seen too. -/
theorem declaredKind?_of_seen (isName : IsName d name) {declared : String}
    (seen : Text.trimChars (withoutMark (withoutArguments declared)) = name.toList) :
    declaredKind? declared =
      some (if (Text.beforeSuffix? unsignedMark (withoutArguments declared)).isSome then d.unsigned
        else d.signed) := by
  obtain ⟨entry, found, kinds⟩ := Option.map_eq_some_iff.1 isName.found
  obtain ⟨signed, unsigned⟩ := Prod.mk.inj kinds
  rw [declaredKind?, seen, String.ofList_toList, found, Option.map_some, signed, unsigned]

theorem fieldType_of_declared {declared : String} (found : declaredKind? declared = some kind) :
    fieldType declared scan nullable = .ok ⟨kind, nullable⟩ := by
  rw [fieldType, found]
  rfl

theorem fieldType_of_name (isName : IsName d name) {declared : String}
    (seen : withoutArguments declared = name.toList) :
    fieldType declared scan nullable = .ok ⟨d.signed, nullable⟩ := by
  have unmarked := isName.unmarked
  have bare : Text.trimChars (withoutMark (withoutArguments declared)) = name.toList := by
    rw [seen, withoutMark, withoutMark_of_unmarked unmarked,
      Text.trimChars_of_trimmed isName.trimmed]
  apply fieldType_of_declared
  rw [declaredKind?_of_seen isName bare, seen, unmarked]
  rfl

theorem fieldType_of_marked (isName : IsName d name) (spelled : Spells base name)
    (spacing : Spacing) :
    fieldType (spacing.declaration base " UNSIGNED") scan nullable = .ok ⟨d.unsigned, nullable⟩ := by
  have seen := withoutArguments_marked isName spelled spacing
  have marked : Text.beforeSuffix? unsignedMark (name.toList ++ spacing.gap ++ unsignedMark) =
      some (name.toList ++ spacing.gap) := Text.beforeSuffix?_eq_some_iff.2 rfl
  have bare : Text.trimChars (withoutMark
      (withoutArguments (spacing.declaration base " UNSIGNED"))) = name.toList := by
    rw [seen, withoutMark_marked (unmarked_behindName isName spacing), trimChars_behindName isName]
  apply fieldType_of_declared
  rw [declaredKind?_of_seen isName bare, seen, marked]
  rfl

end Reading

/-- A recognised name with arguments stands for the same type as without them. With the mark of unsigned
types behind the arguments it still does, since the mark is not seen there; this is what the name stands
for with the mark alone only where the type has no sign. -/
theorem fieldType_withArguments {d : Declaration} (listed : d ∈ declarations) {name base : String}
    (named : name ∈ d.names) (spelled : Spells base name) (spacing : Spacing) (arguments : String)
    (scan : ScanType) (nullable : Bool) :
    fieldType (spacing.declaration base "") scan nullable = .ok ⟨d.signed, nullable⟩ ∧
      fieldType (spacing.declaration base ("(" ++ arguments ++ ")")) scan nullable =
        fieldType (spacing.declaration base "") scan nullable ∧
      fieldType (spacing.declaration base " UNSIGNED") scan nullable = .ok ⟨d.unsigned, nullable⟩ ∧
      fieldType (spacing.declaration base ("(" ++ arguments ++ ") UNSIGNED")) scan nullable =
        fieldType (spacing.declaration base "") scan nullable ∧
      (fieldType (spacing.declaration base ("(" ++ arguments ++ ") UNSIGNED")) scan nullable =
          fieldType (spacing.declaration base " UNSIGNED") scan nullable ↔
        d.signed = d.unsigned) := by
  have isName := isName_of_listed listed named
  have bare : fieldType (spacing.declaration base "") scan nullable = .ok ⟨d.signed, nullable⟩ :=
    fieldType_of_name isName (withoutArguments_bare isName spelled spacing)
  have opened : ("(" ++ arguments ++ ")").toList.map Char.toUpper =
      '(' :: (arguments.toList.map Char.toUpper ++ [')']) := by
    simp
  have openedMarked : ("(" ++ arguments ++ ") UNSIGNED").toList.map Char.toUpper =
      '(' :: (arguments.toList.map Char.toUpper ++ ") UNSIGNE".toList ++ ['D']) := by
    simp
  have withArguments : fieldType (spacing.declaration base ("(" ++ arguments ++ ")")) scan nullable =
      .ok ⟨d.signed, nullable⟩ :=
    fieldType_of_name isName (withoutArguments_opened isName spelled spacing (by decide) opened)
  have lost : fieldType (spacing.declaration base ("(" ++ arguments ++ ") UNSIGNED")) scan nullable =
      .ok ⟨d.signed, nullable⟩ :=
    fieldType_of_name isName
      (withoutArguments_opened isName spelled spacing (by decide) openedMarked)
  have marked : fieldType (spacing.declaration base " UNSIGNED") scan nullable =
      .ok ⟨d.unsigned, nullable⟩ := fieldType_of_marked isName spelled spacing
  refine ⟨bare, withArguments.trans bare.symm, marked, lost.trans bare.symm, ?_⟩
  rw [lost, marked]
  simp

/-- Integers of 64 bits with a display width, with blanks around it. -/
theorem fieldType_bigInt :
    ⟨["BIGINT", "INT8"], .int64, .uint64⟩ ∈ declarations ∧ Spells "BigInt" "BIGINT" ∧
      fieldType "\tBigInt (20) " .any true = .ok ⟨.int64, true⟩ ∧
      fieldType "\tBigInt  UNSIGNED " .any true = .ok ⟨.uint64, true⟩ := by
  have listed : ⟨["BIGINT", "INT8"], .int64, .uint64⟩ ∈ declarations := by simp [declarations]
  have spelled : Spells "BigInt" "BIGINT" := by decide
  have tab : ∀ c ∈ ['\t'], Text.isBlank c = true := List.forall_mem_singleton.2 rfl
  have space : ∀ c ∈ [' '], Text.isBlank c = true := List.forall_mem_singleton.2 rfl
  let spacing : Spacing := ⟨['\t'], [' '], [' '], tab, space, space⟩
  obtain ⟨bare, withArguments, marked, -, -⟩ :=
    fieldType_withArguments listed (.head _) spelled spacing "20" .any true
  exact ⟨listed, spelled, withArguments.trans bare, marked⟩

/-- The mark is seen behind a name, but not behind its display width. -/
theorem fieldType_displayWidth :
    fieldType "INT UNSIGNED" .uint32 false = .ok ⟨.uint32, false⟩ ∧
      fieldType "INT(11) UNSIGNED" .uint32 false = .ok ⟨.int32, false⟩ := by
  exact ⟨rfl, rfl⟩

end SqlType

end Columnar
