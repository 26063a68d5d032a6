import Columnar.Csv
import Columnar.Proofs.Text.Octets
import Columnar.Proofs.Pivot.Rows

/-! What CSV text of a frame says to its readers. A strict reader, which takes a quote only where a
cell begins and a carriage return only inside quotes, gets back from the text the names and types that
were wanted and then the rows, one cell for each field, whatever stands in them. It does not matter
whether it passes over blank lines, since no record is written as one. -/
namespace Columnar

namespace Csv

/-- Where in a record a reader stands. -/
inductive Place where
  | record
  | cell
  | bare
  | quoted
  | closing
deriving DecidableEq, Repr

/-- The records in octets, if they are well formed. The state is the place, the cell in hand and the
cells of the record before it. Where a reader `skips` blank lines, a line feed at the beginning of a
record is no record; elsewhere it is one with an empty cell. -/
def readFrom (delimiter : UInt8) (skips : Bool) (place : Place) (cell : Octets)
    (cells : List Octets) : Octets → Option (List (List Octets))
  | [] =>
    if place = .record then some []
    else if place = .quoted then none
    else some [cells ++ [cell]]
  | octet :: rest =>
    if place = .quoted then
      if octet = quote then readFrom delimiter skips .closing cell cells rest
      else readFrom delimiter skips .quoted (cell ++ [octet]) cells rest
    else if octet = delimiter then readFrom delimiter skips .cell [] (cells ++ [cell]) rest
    else if octet = lineFeed then
      let following := readFrom delimiter skips .record [] [] rest
      if place = .record && skips then following
      else following.map ((cells ++ [cell]) :: ·)
    else if octet = quote then
      if place = .closing then readFrom delimiter skips .quoted (cell ++ [quote]) cells rest
      else if place = .bare then none
      else readFrom delimiter skips .quoted cell cells rest
    else if octet = carriageReturn ∨ place = .closing then none
    else readFrom delimiter skips .bare (cell ++ [octet]) cells rest

/-- The records of a text, if it is well formed. -/
def read (delimiter : UInt8) (skips : Bool) (text : String) : Option (List (List String)) :=
  (readFrom delimiter skips .record [] [] (Octets.ofString text)).map
    (·.map (·.map Octets.toText))

/-- A delimiter that a text can hold and that means nothing else. -/
structure Separates (delimiter : UInt8) : Prop where
  isAscii : delimiter < 0x80
  ne_quote : delimiter ≠ quote
  ne_lineFeed : delimiter ≠ lineFeed
  ne_carriageReturn : delimiter ≠ carriageReturn

section Reading

variable {delimiter : UInt8} {skips : Bool} {place : Place} {cells : List Octets}

/-- A delimiter outside quotes ends a cell. -/
theorem readFrom_delimiter (outside : place ≠ .quoted) (cell rest : Octets) :
    readFrom delimiter skips place cell cells (delimiter :: rest) =
      readFrom delimiter skips .cell [] (cells ++ [cell]) rest := by
  rw [readFrom, if_neg outside, if_pos rfl]

/-- A line feed outside quotes ends a record that has begun. -/
theorem readFrom_lineFeed (separates : Separates delimiter) (outside : place ≠ .quoted)
    (begun : place ≠ .record) (cell rest : Octets) :
    readFrom delimiter skips place cell cells (lineFeed :: rest) =
      (readFrom delimiter skips .record [] [] rest).map ((cells ++ [cell]) :: ·) := by
  rw [readFrom, if_neg outside, if_neg separates.ne_lineFeed.symm, if_pos rfl]
  simp [begun]

/-- A quote at the beginning of a cell opens it. -/
theorem readFrom_quote (separates : Separates delimiter)
    (begins : place = .record ∨ place = .cell) (cell rest : Octets) :
    readFrom delimiter skips place cell cells (quote :: rest) =
      readFrom delimiter skips .quoted cell cells rest := by
  have elsewhere : place ≠ .quoted := by rcases begins with rfl | rfl <;> decide
  rw [readFrom, if_neg elsewhere, if_neg separates.ne_quote.symm, if_neg (by decide), if_pos rfl]
  rcases begins with rfl | rfl <;> rfl

/-- An octet without a meaning of its own stands for itself. -/
theorem readFrom_plain {octet : UInt8} (plain : needsQuotes delimiter [octet] = false)
    (unclosed : place ≠ .quoted ∧ place ≠ .closing) (cell rest : Octets) :
    readFrom delimiter skips place cell cells (octet :: rest) =
      readFrom delimiter skips .bare (cell ++ [octet]) cells rest := by
  simp only [needsQuotes, List.any_cons, List.any_nil, Bool.or_false, Bool.or_eq_false_iff,
    beq_eq_false_iff_ne] at plain
  obtain ⟨⟨⟨notDelimiter, notQuote⟩, notLineFeed⟩, notReturn⟩ := plain
  rw [readFrom, if_neg unclosed.1, if_neg notDelimiter, if_neg notLineFeed, if_neg notQuote,
    if_neg (by simp [notReturn, unclosed.2])]

/-- The octets of a cell that stands without quotes. -/
theorem readFrom_bare {content : Octets} (plain : needsQuotes delimiter content = false)
    (filled : content ≠ []) (unclosed : place ≠ .quoted ∧ place ≠ .closing) (cell rest : Octets) :
    readFrom delimiter skips place cell cells (content ++ rest) =
      readFrom delimiter skips .bare (cell ++ content) cells rest := by
  induction content generalizing place cell with
  | nil => exact absurd rfl filled
  | cons octet more ih =>
    obtain ⟨here, later⟩ : needsQuotes delimiter [octet] = false ∧
        needsQuotes delimiter more = false := by
      simpa [needsQuotes] using plain
    rw [List.cons_append, readFrom_plain here unclosed]
    cases more with
    | nil => rfl
    | cons next others =>
      have onBare : Place.bare ≠ .quoted ∧ Place.bare ≠ .closing := by decide
      rw [ih later (List.cons_ne_nil next others) onBare]
      simp

/-- Doubled quotes are read as single ones, and the quote after the content closes the cell. -/
theorem readFrom_doubled (separates : Separates delimiter) (skips : Bool) (cells : List Octets)
    (content cell rest : Octets) :
    readFrom delimiter skips .quoted cell cells
        (content.flatMap (fun octet => if octet = quote then [quote, quote] else [octet])
          ++ quote :: rest) =
      readFrom delimiter skips .closing (cell ++ content) cells rest := by
  induction content generalizing cell with
  | nil => simp [readFrom]
  | cons octet more ih =>
    have again (cell rest : Octets) : readFrom delimiter skips .closing cell cells (quote :: rest) =
        readFrom delimiter skips .quoted (cell ++ [quote]) cells rest := by
      rw [readFrom, if_neg (by decide), if_neg separates.ne_quote.symm, if_neg (by decide),
        if_pos rfl, if_pos rfl]
    rw [List.flatMap_cons, List.append_assoc]
    by_cases isQuote : octet = quote
    · subst isQuote
      rw [if_pos rfl, List.cons_append, readFrom, if_pos rfl, if_pos rfl, List.cons_append, again,
        List.nil_append, ih]
      simp
    · rw [if_neg isQuote, List.cons_append, readFrom, if_pos rfl, if_neg isQuote,
        List.nil_append, ih]
      simp

/-- A cell as it is written is read in full. Only one that is written as nothing leaves the reader
where it was. -/
theorem readFrom_cell (separates : Separates delimiter) (skips : Bool)
    (begins : place = .record ∨ place = .cell) (cells : List Octets) (content rest : Octets) :
    ∃ after, after ≠ .quoted ∧ (after = .record → place = .record ∧ cell delimiter content = []) ∧
      readFrom delimiter skips place [] cells (cell delimiter content ++ rest) =
        readFrom delimiter skips after content cells rest := by
  rw [cell]
  by_cases needs : needsQuotes delimiter content
  · refine ⟨.closing, by decide, nofun, ?_⟩
    rw [if_pos needs, quoted, List.cons_append, List.cons_append, List.append_assoc,
      readFrom_quote separates begins]
    exact readFrom_doubled separates skips cells content [] rest
  · rw [if_neg needs]
    by_cases filled : content = []
    · subst filled
      refine ⟨place, ?_, fun isRecord => ⟨isRecord, rfl⟩, rfl⟩
      rcases begins with rfl | rfl <;> decide
    · refine ⟨.bare, by decide, nofun, ?_⟩
      refine readFrom_bare (by simpa using needs) filled ?_ [] rest
      rcases begins with rfl | rfl <;> decide

end Reading

section Writing

variable {delimiter : UInt8}

@[simp] theorem joined_single (content : Octets) :
    joined delimiter [content] = cell delimiter content := by
  simp [joined]

@[simp] theorem joined_cons_cons (first second : Octets) (more : List Octets) :
    joined delimiter (first :: second :: more) =
      cell delimiter first ++ delimiter :: joined delimiter (second :: more) := by
  simp [joined]

theorem cell_eq_nil_iff {content : Octets} : cell delimiter content = [] ↔ content = [] := by
  rw [cell]
  split
  next needs =>
    have filled : content ≠ [] := by
      rintro rfl
      exact absurd needs Bool.false_ne_true
    simp [quoted, filled]
  next => rfl

/-- Only a record of one empty cell would be written as nothing. -/
theorem eq_of_joined_eq_nil {cells : List Octets} (filled : cells ≠ [])
    (nothing : joined delimiter cells = []) : cells = [[]] := by
  match cells, filled, nothing with
  | [content], _, nothing =>
    rw [joined_single, cell_eq_nil_iff] at nothing
    rw [nothing]
  | first :: second :: more, _, nothing => simp at nothing

end Writing

section Records

variable {delimiter : UInt8} {skips : Bool}

/-- The cells of a record between delimiters. A reader at the beginning of the record must not take
it for a blank line. -/
theorem readFrom_joined (separates : Separates delimiter) {place : Place} {first : Octets}
    {others : List Octets}
    (begins : place = .cell ∨ place = .record ∧ joined delimiter (first :: others) ≠ [])
    (before : List Octets) (rest : Octets) :
    readFrom delimiter skips place [] before
        (joined delimiter (first :: others) ++ lineFeed :: rest) =
      (readFrom delimiter skips .record [] [] rest).map ((before ++ first :: others) :: ·) := by
  have atCell : place = .record ∨ place = .cell := by
    rcases begins with isCell | ⟨isRecord, _⟩
    · exact .inr isCell
    · exact .inl isRecord
  induction others generalizing place first before with
  | nil =>
    rw [joined_single] at begins ⊢
    obtain ⟨after, outside, unmoved, same⟩ :=
      readFrom_cell separates skips atCell before first (lineFeed :: rest)
    have begun : after ≠ .record := by
      intro isRecord
      obtain ⟨rfl, nothing⟩ := unmoved isRecord
      rcases begins with impossible | ⟨_, filled⟩
      · exact absurd impossible (by decide)
      · exact filled nothing
    rw [same, readFrom_lineFeed separates outside begun]
  | cons second more ih =>
    obtain ⟨after, outside, _, same⟩ :=
      readFrom_cell separates skips atCell before first
        (delimiter :: joined delimiter (second :: more) ++ lineFeed :: rest)
    rw [joined_cons_cons, List.append_assoc, same, List.cons_append, readFrom_delimiter outside,
      ih (.inl rfl) (before ++ [first]) (.inr rfl), List.append_assoc, List.singleton_append]

/-- A record as it is written, also one that a reader would else pass over. -/
theorem readFrom_record (separates : Separates delimiter) {cells : List Octets}
    (filled : cells ≠ []) (rest : Octets) :
    readFrom delimiter skips .record [] [] (record delimiter cells ++ rest) =
      (readFrom delimiter skips .record [] [] rest).map (cells :: ·) := by
  rw [record, List.append_assoc, List.singleton_append]
  by_cases nothing : joined delimiter cells = []
  · rw [if_pos nothing, eq_of_joined_eq_nil filled nothing, List.cons_append,
      readFrom_quote separates (.inl rfl)]
    have closed := readFrom_doubled separates skips [] [] [] (lineFeed :: rest)
    rw [List.flatMap_nil] at closed
    rw [List.singleton_append]
    exact closed.trans (readFrom_lineFeed separates (by decide) (by decide) _ _)
  · rw [if_neg nothing]
    obtain ⟨first, others, rfl⟩ := List.exists_cons_of_ne_nil filled
    exact readFrom_joined separates (.inr ⟨rfl, nothing⟩) [] rest

theorem readFrom_records (separates : Separates delimiter) {rows : List (List Octets)}
    (filled : ∀ cells ∈ rows, cells ≠ []) :
    readFrom delimiter skips .record [] [] (records delimiter rows) = some rows := by
  induction rows with
  | nil => rfl
  | cons cells more ih =>
    rw [List.forall_mem_cons] at filled
    rw [records, List.flatMap_cons, readFrom_record separates filled.1, ← records, ih filled.2]
    rfl

end Records

section Texts

open Octets (IsText isText_nil isText_append isText_ascii isText_cons isText_flatMap)

variable {delimiter : UInt8}

/-- Quotes are doubled between characters, since no character but the quote has its octet. -/
theorem isText_quoted (text : String) : IsText (quoted (Octets.ofString text)) := by
  have ofQuote : IsText [quote] := isText_ascii (by decide)
  refine isText_append (isText_cons (by decide) ?_) ofQuote
  rw [Octets.ofString_eq, List.flatMap_assoc]
  refine isText_flatMap fun c _ => ?_
  by_cases holds : quote ∈ String.utf8EncodeChar c
  · rw [Octets.encodeChar_eq_of_mem (by decide) holds]
    exact isText_cons (by decide) ofQuote
  · have unchanged : (String.utf8EncodeChar c).flatMap
          (fun octet => if octet = quote then [quote, quote] else [octet]) =
        (String.utf8EncodeChar c).flatMap ([·]) :=
      List.flatMap_congr fun octet member =>
        if_neg fun isQuote : octet = quote => holds (isQuote ▸ member)
    rw [unchanged, List.flatMap_singleton']
    simpa using Octets.isText_chars [c]

theorem isText_joined (separates : Separates delimiter) (texts : List String) :
    IsText (joined delimiter (texts.map Octets.ofString)) := by
  have ofCell (text : String) : IsText (cell delimiter (Octets.ofString text)) := by
    rw [cell]
    split
    · exact isText_quoted text
    · exact ⟨text, rfl⟩
  induction texts with
  | nil => exact isText_nil
  | cons first rest ih =>
    cases rest with
    | nil => simpa using ofCell first
    | cons second more =>
      rw [List.map_cons, List.map_cons, joined_cons_cons]
      exact isText_append (ofCell first) (isText_cons separates.isAscii ih)

theorem isText_records (separates : Separates delimiter) (rows : List (List String)) :
    IsText (records delimiter (rows.map (·.map Octets.ofString))) := by
  refine isText_flatMap fun cells member => ?_
  obtain ⟨texts, _, rfl⟩ := List.mem_map.1 member
  refine isText_append ?_ (isText_ascii (by decide))
  split
  · exact isText_cons (by decide) (isText_ascii (by decide))
  · exact isText_joined separates texts

/-- Records of texts, none without a cell, are read back from the text they are written as. -/
theorem read_toText_records (separates : Separates delimiter) (skips : Bool)
    {rows : List (List String)} (filled : ∀ texts ∈ rows, texts ≠ []) :
    read delimiter skips (records delimiter (rows.map (·.map Octets.ofString))).toText =
      some rows := by
  have written : ∀ cells ∈ rows.map (·.map Octets.ofString), cells ≠ [] := by
    intro cells member
    obtain ⟨texts, inRows, rfl⟩ := List.mem_map.1 member
    simpa using filled texts inRows
  rw [read, Octets.ofString_toText (isText_records separates rows),
    readFrom_records separates written, Option.map_some, List.map_map]
  simp [Function.comp_def, Octets.toText_ofString]

end Texts

end Csv

namespace Frame

section

variable {frame : Frame} {options : CsvOptions} {rows : Nat}

theorem csvRecords_eq (even : ∀ field ∈ frame.fields, field.column.size = rows) :
    frame.csvRecords options rows =
      (if options.names then [frame.fields.map Field.name] else []) ++
        (if options.types then [frame.fields.map fun field => field.type.kind.coarse.name]
          else []) ++
        (List.range rows).map fun row => frame.fields.map (·.column.textAt row) := by
  have each : ∀ column ∈ frame.fields.map Field.column, column.size = rows := by
    intro column member
    obtain ⟨field, listed, rfl⟩ := List.mem_map.1 member
    exact even field listed
  rw [csvRecords, Column.textRows_eq rows _ each]
  simp [Function.comp_def]

/-- Every record has a cell for each field. -/
theorem length_of_mem_csvRecords (even : ∀ field ∈ frame.fields, field.column.size = rows)
    {texts : List String} (member : texts ∈ frame.csvRecords options rows) :
    texts.length = frame.fields.length := by
  rw [csvRecords_eq even, List.mem_append, List.mem_append] at member
  rcases member with (isNames | isTypes) | isRow
  · split at isNames
    · simp [List.mem_singleton.1 isNames]
    · nomatch isNames
  · split at isTypes
    · simp [List.mem_singleton.1 isTypes]
    · nomatch isTypes
  · obtain ⟨row, _, rfl⟩ := List.mem_map.1 isRow
    simp

/-- The text is made of the octets; nothing in them is no text. -/
theorem csv_eq (counted : frame.rowCount = .ok rows)
    (separates : Csv.Separates options.delimiter) :
    frame.csv options = .ok (Csv.records options.delimiter
      ((frame.csvRecords options rows).map (·.map Octets.ofString))).toText := by
  have octets : frame.csvOctets options = .ok (Csv.records options.delimiter
      ((frame.csvRecords options rows).map (·.map Octets.ofString))) := by
    rw [csvOctets, counted]
    rfl
  rw [csv, octets]
  simp only [bind, Except.bind]
  rw [Octets.textBreak?_of_isText (Csv.isText_records separates _)]

/-- The CSV text of a table with a field is read, with blank lines passed over or not, as the names
if they are wanted, the coarse types if they are, and the rows: in every record one cell for each
field, and for a row the texts of its cells, that of a null being empty. -/
theorem read_csv (nonempty : frame.fields ≠ [])
    (even : ∀ field ∈ frame.fields, field.column.size = rows)
    (separates : Csv.Separates options.delimiter) (skips : Bool) :
    ∃ text, frame.csv options = .ok text ∧
      Csv.read options.delimiter skips text = some
        ((if options.names then [frame.fields.map Field.name] else []) ++
          (if options.types then [frame.fields.map fun field => field.type.kind.coarse.name]
            else []) ++
          (List.range rows).map fun row => frame.fields.map fun field =>
            ((field.column.get? row).getD .null).text) := by
  have counted : frame.rowCount = .ok rows := rowCount_eq_ok_iff.2 ⟨nonempty, even⟩
  have filled : ∀ texts ∈ frame.csvRecords options rows, texts ≠ [] := by
    intro texts member
    rw [← List.length_pos_iff, length_of_mem_csvRecords even member, List.length_pos_iff]
    exact nonempty
  refine ⟨_, csv_eq counted separates, ?_⟩
  rw [Csv.read_toText_records separates skips filled, csvRecords_eq even]
  rfl

end

private theorem text_nullable : (⟨.string, true⟩ : FieldType).nullable = true := rfl

/-- Notes with quotes and ends of lines in them, one of them missing. -/
def notes : Frame where
  name := "notes"
  fields :=
    [⟨"note;\r", Labels.empty, none,
        ⟨⟨.string, true⟩, ⟨[Cell.of "a \"b\";\n", Cell.empty text_nullable, Cell.of "\""]⟩⟩⟩]

/-- The record of the missing note is no blank line. -/
theorem read_csv_notes :
    (notes.fields ≠ [] ∧ ∀ field ∈ notes.fields, field.column.size = 3) ∧
    Csv.Separates 0x3B ∧
    ∃ text, notes.csv { types := true, delimiter := 0x3B } = .ok text ∧
      Csv.read 0x3B true text =
        some [["note;\r"], ["string"], ["a \"b\";\n"], [""], ["\""]] := by
  have nonempty : notes.fields ≠ [] := List.cons_ne_nil _ _
  have even : ∀ field ∈ notes.fields, field.column.size = 3 := by
    intro field member
    rw [List.mem_singleton.1 member]
    rfl
  have separates : Csv.Separates 0x3B := ⟨by decide, by decide, by decide, by decide⟩
  exact ⟨⟨nonempty, even⟩, separates,
    @read_csv notes { types := true, delimiter := 0x3B } 3 nonempty even separates true⟩

end Frame

end Columnar
