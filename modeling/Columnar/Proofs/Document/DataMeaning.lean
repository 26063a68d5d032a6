import Columnar.Proofs.Document.CellMeaning
import Columnar.Proofs.Document.Listed

/-! What a data section means for a list of types. It is read just when its columns fit the types one
by one and are of one length, and then says every cell: where special floats are listed they count, and
elsewhere the value that stands in the column. -/
namespace Columnar

namespace Entities

/-- The special float that counts at a row. A row may be listed more than once: negative infinity goes
before infinity, and this before the nans. -/
def special? (entities : Entities) (row : Nat) : Option SpecialFloat :=
  if row ∈ entities.rowsAt .negInfinity then some .negInfinity
  else if row ∈ entities.rowsAt .infinity then some .infinity
  else if row ∈ entities.rowsAt .nan then some .nan
  else none

/-- The content of a row where the special floats count. -/
def contentAt (entities : Entities) (kind : Kind) (row : Nat) (content : Option kind.Element) :
    Option kind.Element :=
  match entities.special? row with
  | some special => special.element? kind
  | none => content

/-- The rows can be those of a column: only floats have special ones among them, and no row is behind
the last one. -/
structure Suits (entities : Entities) (type : FieldType) (rows : Nat) : Prop where
  floats : type.kind.isFloat = false → ∀ special, entities.rowsAt special = []
  inside : ∀ special, ∀ row ∈ entities.rowsAt special, row < rows

variable {entities : Entities} {row : Nat}

theorem special?_eq_none_iff :
    entities.special? row = none ↔ ∀ special, row ∉ entities.rowsAt special := by
  unfold special?
  constructor
  · intro unlisted special
    split_ifs at unlisted
    cases special <;> assumption
  · intro unlisted
    rw [if_neg (unlisted .negInfinity), if_neg (unlisted .infinity), if_neg (unlisted .nan)]

theorem mem_of_special? {special : SpecialFloat} (counts : entities.special? row = some special) :
    row ∈ entities.rowsAt special := by
  unfold special? at counts
  split_ifs at counts <;> cases counts <;> assumption

/-- The special floats put into a row one after the other leave the one that counts. -/
theorem contentAt_eq (kind : Kind) (content : Option kind.Element) :
    entities.contentAt kind row content =
    if row ∈ entities.negInfinity then SpecialFloat.negInfinity.element? kind
    else if row ∈ entities.infinity then SpecialFloat.infinity.element? kind
    else if row ∈ entities.nan then SpecialFloat.nan.element? kind
    else content := by
  unfold contentAt special? rowsAt
  split_ifs <;> rfl

theorem Suits.isFloat {type : FieldType} {rows : Nat} (suits : entities.Suits type rows)
    {special : SpecialFloat} (listed : row ∈ entities.rowsAt special) :
    type.kind.isFloat = true := by
  by_contra other
  rw [suits.floats (by simpa using other) special] at listed
  cases listed

end Entities

/-- The special floats of a kind of floats are elements of it. -/
theorem SpecialFloat.exists_element (special : SpecialFloat) {kind : Kind}
    (float : kind.isFloat = true) :
    ∃ x, special.element? kind = some x ∧ kind.special? x = some special := by
  cases kind with
  | float32 | float64 => cases special <;> exact ⟨_, rfl, by decide⟩
  | _ => cases float

namespace DataContent

variable {type : FieldType} {field : Nat}

theorem inside_of_place {special : SpecialFloat} {rows : List Nat}
    {cells result : List (Option type.kind.Element)}
    (ran : place field special cells rows = .ok result) : ∀ row ∈ rows, row < cells.length := by
  induction rows generalizing cells with
  | nil => exact List.forall_mem_nil _
  | cons row rest ih =>
    rw [place, List.foldlM_cons] at ran
    obtain ⟨next, set, ran⟩ := bind_eq_ok_iff.1 ran
    split at set
    next here =>
      cases set
      have later := ih ran
      rw [List.length_set] at later
      exact List.forall_mem_cons.2 ⟨here, later⟩
    · cases set

/-- A special float is put into cells when there are cells at all of its rows. -/
theorem place_eq_ok_iff {special : SpecialFloat} {rows : List Nat}
    {cells result : List (Option type.kind.Element)} :
    place field special cells rows = .ok result ↔ (∀ row ∈ rows, row < cells.length) ∧
      result = cells.mapIdx fun row content =>
        if row ∈ rows then special.element? type.kind else content := by
  have ran : (∀ row ∈ rows, row < cells.length) → place field special cells rows =
      .ok (cells.mapIdx fun row content =>
        if row ∈ rows then special.element? type.kind else content) := by
    intro inside
    obtain ⟨placed, ran, length, found⟩ := place_eq_ok field special cells inside
    rw [ran]
    refine congrArg Except.ok (List.ext_getElem? fun row => ?_)
    rw [List.getElem?_mapIdx]
    by_cases below : row < cells.length
    · rw [found row below, List.getElem?_eq_getElem below]
      split <;> simp [*]
    · rw [List.getElem?_eq_none (by omega), List.getElem?_eq_none (Nat.le_of_not_lt below)]
      rfl
  constructor
  · intro placed
    have inside := inside_of_place placed
    rw [ran inside] at placed
    cases placed
    exact ⟨inside, rfl⟩
  · rintro ⟨inside, rfl⟩
    exact ran inside

theorem placeEntities_eq_ok_iff {entities : Entities}
    {cells result : List (Option type.kind.Element)} :
    placeEntities field cells entities = .ok result ↔ entities.Suits type cells.length ∧
      result = cells.mapIdx (entities.contentAt type.kind) := by
  have combined : (((cells.mapIdx fun row content =>
        if row ∈ entities.nan then SpecialFloat.nan.element? type.kind else content).mapIdx
      fun row content =>
        if row ∈ entities.infinity then SpecialFloat.infinity.element? type.kind else content).mapIdx
      fun row content =>
        if row ∈ entities.negInfinity then SpecialFloat.negInfinity.element? type.kind
        else content) = cells.mapIdx (entities.contentAt type.kind) := by
    rw [List.mapIdx_mapIdx, List.mapIdx_mapIdx]
    congr 1
    funext row content
    rw [Entities.contentAt_eq]
    rfl
  rw [placeEntities]
  split
  next other =>
    simp only [Bool.and_eq_true, Bool.not_eq_true'] at other
    constructor
    · intro ran
      cases ran
    · rintro ⟨suits, -⟩
      rw [Entities.isEmpty_iff.2 (suits.floats other.2)] at other
      cases other.1
  next taken =>
    have floats : type.kind.isFloat = false → ∀ special, entities.rowsAt special = [] := by
      intro other
      rw [← Entities.isEmpty_iff]
      simpa [other] using taken
    constructor
    · intro ran
      obtain ⟨first, nan, ran⟩ := bind_eq_ok_iff.1 ran
      obtain ⟨second, infinity, negInfinity⟩ := bind_eq_ok_iff.1 ran
      obtain ⟨insideNan, rfl⟩ := place_eq_ok_iff.1 nan
      obtain ⟨insideInfinity, rfl⟩ := place_eq_ok_iff.1 infinity
      obtain ⟨insideNegInfinity, rfl⟩ := place_eq_ok_iff.1 negInfinity
      simp only [List.length_mapIdx] at insideInfinity insideNegInfinity
      refine ⟨⟨floats, fun special => ?_⟩, combined⟩
      cases special with
      | nan => exact insideNan
      | infinity => exact insideInfinity
      | negInfinity => exact insideNegInfinity
    · rintro ⟨suits, rfl⟩
      rw [← combined]
      refine bind_eq_ok_iff.2 ⟨_, place_eq_ok_iff.2 ⟨suits.inside .nan, rfl⟩,
        bind_eq_ok_iff.2 ⟨_, place_eq_ok_iff.2 ⟨?_, rfl⟩, place_eq_ok_iff.2 ⟨?_, rfl⟩⟩⟩
      · rw [List.length_mapIdx]
        exact suits.inside .infinity
      · rw [List.length_mapIdx, List.length_mapIdx]
        exact suits.inside .negInfinity

theorem requireCell_eq_ok_iff {content : Option type.kind.Element} {cell : Cell type} :
    requireCell field content = .ok cell ↔ cell.content = content :=
  ⟨content_of_requireCell, fun same => same ▸ requireCell_content field cell⟩

theorem mapM_requireCell_eq_ok_iff {contents : List (Option type.kind.Element)}
    {cells : List (Cell type)} :
    contents.mapM (requireCell field) = .ok cells ↔ cells.map Cell.content = contents := by
  simp only [mapM_eq_ok_iff, requireCell_eq_ok_iff]
  constructor
  · intro all
    exact (map_eq_of_forall₂ (f := id) all).trans (List.map_id contents)
  · rintro rfl
    exact List.forall₂_map_left_iff.2 (List.forall₂_same.2 fun cell _ => rfl)

/-- A column without an entry is one with an entry that has nothing in it. -/
theorem column_getD (values : List Json) (entities : Option Entities) :
    DataContent.column field type values entities =
      DataContent.column field type values (some (entities.getD {})) := by
  cases entities <;> rfl

/-- A column is read when its values mean something and its special floats can stand in it, and there
are cells that hold all this. -/
theorem column_eq_ok_iff {values : List Json} {entities : Option Entities} {column : Column} :
    DataContent.column field type values entities = .ok column ↔
      (entities.getD {}).Suits type values.length ∧
        ∃ contents, List.Forall₂ type.Means values contents ∧
          ∃ cells : List (Cell type), column = ⟨type, ⟨cells⟩⟩ ∧
            cells.map Cell.content = contents.mapIdx ((entities.getD {}).contentAt type.kind) := by
  rw [column_getD]
  constructor
  · intro ran
    obtain ⟨contents, read, ran⟩ := bind_eq_ok_iff.1 ran
    obtain ⟨result, put, ran⟩ := bind_eq_ok_iff.1 ran
    obtain ⟨cells, required, made⟩ := bind_eq_ok_iff.1 ran
    rw [contents_eq_ok_iff] at read
    simp only [FieldType.contentOf?_eq_some_iff] at read
    obtain ⟨suits, rfl⟩ := placeEntities_eq_ok_iff.1 put
    cases made
    exact ⟨read.length_eq ▸ suits, contents, read, cells, rfl, mapM_requireCell_eq_ok_iff.1 required⟩
  · rintro ⟨suits, contents, means, cells, rfl, same⟩
    have read : DataContent.contents field type 0 values = .ok contents := by
      rw [contents_eq_ok_iff]
      simpa only [FieldType.contentOf?_eq_some_iff] using means
    exact bind_eq_ok_iff.2 ⟨contents, read, bind_eq_ok_iff.2 ⟨_,
      placeEntities_eq_ok_iff.2 ⟨means.length_eq ▸ suits, rfl⟩,
      bind_eq_ok_iff.2 ⟨cells, mapM_requireCell_eq_ok_iff.2 same, rfl⟩⟩⟩

end DataContent

/-- The values and the special floats of a column fit a type: whatever stands in the column means
something, and there are special floats where the type wants something and the column has nothing. -/
structure FieldType.Fits (type : FieldType) (values : List Json) (entities : Entities) : Prop where
  means : ∀ value ∈ values, ∃ content, type.Means value content
  floats : type.kind.isFloat = false → ∀ special, entities.rowsAt special = []
  inside : ∀ special, ∀ row ∈ entities.rowsAt special, row < values.length
  filled : type.nullable = false → type.kind ≠ .json →
    ∀ row : Nat, values[row]? = some .null → ∃ special, row ∈ entities.rowsAt special

/-- The cells of a column are what its values and its special floats say. -/
structure Column.Shows (column : Column) (values : List Json) (entities : Entities) : Prop where
  size : column.size = values.length
  special : ∀ (row : Nat) cell special, column.cells.toList[row]? = some cell →
    entities.special? row = some special →
      cell.content = special.element? column.type.kind ∧
        cell.content.bind column.type.kind.special? = some special
  plain : ∀ (row : Nat) cell value, column.cells.toList[row]? = some cell →
    values[row]? = some value → entities.special? row = none →
      column.type.Means value cell.content
  integers : ∀ low high, column.type.kind.range? = some (low, high) →
    ∀ (row : Nat) cell value x, column.cells.toList[row]? = some cell → values[row]? = some value →
      cell.content = some x → ∃ n inRange, value = .number (.whole n inRange) ∧
        column.type.kind.integer? x = some n ∧ low ≤ n ∧ n ≤ high

namespace FieldType

variable {type : FieldType} {values : List Json} {entities : Entities}
  {contents : List (Option type.kind.Element)} {cells : List (Cell type)}

theorem Fits.suits (fits : type.Fits values entities) : entities.Suits type values.length :=
  ⟨fits.floats, fits.inside⟩

/-- Where nothing may be missing, there is something at every row. -/
theorem Fits.isSome_contentAt (fits : type.Fits values entities) (required : type.nullable = false)
    {row : Nat} {value : Json} {content : Option type.kind.Element}
    (here : values[row]? = some value) (means : type.Means value content) :
    (entities.contentAt type.kind row content).isSome = true := by
  unfold Entities.contentAt
  cases counts : entities.special? row with
  | some special =>
    have listed := Entities.mem_of_special? counts
    obtain ⟨x, element, -⟩ := special.exists_element (fits.suits.isFloat listed)
    simp [element]
  | none =>
    cases means with
    | element => rfl
    | nothing other =>
      have notDocument : type.kind ≠ .json := fun document => by
        rw [other document] at required
        cases required
      obtain ⟨special, listed⟩ := fits.filled required notDocument row here
      exact absurd listed (Entities.special?_eq_none_iff.1 counts special)

private theorem exists_value_of_means (means : List.Forall₂ type.Means values contents) {row : Nat}
    {content : Option type.kind.Element} (here : contents[row]? = some content) :
    ∃ value, values[row]? = some value ∧ type.Means value content := by
  have swapped : List.Forall₂ (flip type.Means) contents values := List.Forall₂.flip means
  exact getElem?_of_forall₂ swapped here

/-- A column that fits its type has cells. -/
theorem Fits.exists_cells (fits : type.Fits values entities) :
    ∃ contents, List.Forall₂ type.Means values contents ∧ ∃ cells : List (Cell type),
      cells.map Cell.content = contents.mapIdx (entities.contentAt type.kind) := by
  obtain ⟨contents, means⟩ := exists_forall₂ fits.means
  have cell : ∀ content ∈ contents.mapIdx (entities.contentAt type.kind),
      ∃ cell : Cell type, cell.content = content := by
    intro content member
    obtain ⟨row, below, rfl⟩ := List.mem_mapIdx.1 member
    obtain ⟨value, here, means⟩ := exists_value_of_means means (List.getElem?_eq_getElem below)
    exact ⟨⟨_, fun required => fits.isSome_contentAt required here means⟩, rfl⟩
  obtain ⟨cells, same⟩ := exists_forall₂ cell
  exact ⟨contents, means, cells, (map_eq_of_forall₂ (f := id) same).trans (List.map_id _)⟩

/-- The cell at a row holds what the value there means, under the special floats. -/
theorem exists_value_of_same (means : List.Forall₂ type.Means values contents)
    (same : cells.map Cell.content = contents.mapIdx (entities.contentAt type.kind)) {row : Nat}
    {cell : Cell type} (here : cells[row]? = some cell) :
    ∃ value content, values[row]? = some value ∧ type.Means value content ∧
      cell.content = entities.contentAt type.kind row content := by
  have held := congrArg (·[row]?) same
  simp only [List.getElem?_map, List.getElem?_mapIdx, here, Option.map_some] at held
  obtain ⟨content, there, held⟩ := Option.map_eq_some_iff.1 held.symm
  obtain ⟨value, listed, means⟩ := exists_value_of_means means there
  exact ⟨value, content, listed, means, held.symm⟩

theorem length_of_same (means : List.Forall₂ type.Means values contents)
    (same : cells.map Cell.content = contents.mapIdx (entities.contentAt type.kind)) :
    cells.length = values.length := by
  have lengths := congrArg List.length same
  rw [List.length_map, List.length_mapIdx] at lengths
  rw [lengths, means.length_eq]

theorem fits_of_same (suits : entities.Suits type values.length)
    (means : List.Forall₂ type.Means values contents)
    (same : cells.map Cell.content = contents.mapIdx (entities.contentAt type.kind)) :
    type.Fits values entities where
  means value member := by
    obtain ⟨content, -, means⟩ := exists_right_of_forall₂ means member
    exact ⟨content, means⟩
  floats := suits.floats
  inside := suits.inside
  filled required notDocument row here := by
    by_contra unlisted
    have below : row < cells.length := by
      rw [length_of_same means same]
      exact (List.getElem?_eq_some_iff.1 here).1
    obtain ⟨value, content, there, means, held⟩ :=
      exists_value_of_same means same (List.getElem?_eq_getElem below)
    cases here.symm.trans there
    rw [Entities.contentAt, Entities.special?_eq_none_iff.2 (not_exists.1 unlisted)] at held
    cases means with
    | nothing =>
      rw [Cell.nullable_of_content_none _ held] at required
      cases required
    | element present => exact notDocument (present rfl).1

theorem shows_of_same (suits : entities.Suits type values.length)
    (means : List.Forall₂ type.Means values contents)
    (same : cells.map Cell.content = contents.mapIdx (entities.contentAt type.kind)) :
    Column.Shows ⟨type, ⟨cells⟩⟩ values entities := by
  have plain : ∀ (row : Nat) cell value, cells[row]? = some cell → values[row]? = some value →
      entities.special? row = none → type.Means value cell.content := by
    intro row cell value here there unlisted
    obtain ⟨found, content, listed, means, held⟩ := exists_value_of_same means same here
    cases there.symm.trans listed
    rw [held, Entities.contentAt, unlisted]
    exact means
  refine ⟨length_of_same means same, fun row cell special here counts => ?_, plain,
    fun low high range row cell value x here there held => ?_⟩
  · obtain ⟨-, content, -, -, held⟩ := exists_value_of_same means same here
    rw [Entities.contentAt, counts] at held
    obtain ⟨x, element, isSpecial⟩ :=
      special.exists_element (suits.isFloat (Entities.mem_of_special? counts))
    refine ⟨held, ?_⟩
    rw [held]
    dsimp only
    rw [element]
    exact isSpecial
  · have unlisted : entities.special? row = none := by
      rw [Entities.special?_eq_none_iff]
      intro special listed
      have float := suits.isFloat listed
      rw [Kind.isFloat_eq_false_of_range range] at float
      cases float
    have means := plain row cell value here there unlisted
    rw [held] at means
    cases means with
    | element _ stands => exact Kind.whole_of_stands range stands

end FieldType

namespace DataContent

/-- A column is read just when its values and its special floats fit the type, and its cells are what
these say. -/
theorem column_eq_ok_iff_shows {type : FieldType} {field : Nat} {values : List Json}
    {entities : Option Entities} {column : Column} :
    DataContent.column field type values entities = .ok column ↔
      type.Fits values (entities.getD {}) ∧ column.type = type ∧
        column.Shows values (entities.getD {}) := by
  rw [column_eq_ok_iff]
  constructor
  · rintro ⟨suits, contents, means, cells, rfl, same⟩
    exact ⟨FieldType.fits_of_same suits means same, rfl, FieldType.shows_of_same suits means same⟩
  · rintro ⟨fits, rfl, shows⟩
    obtain ⟨type, ⟨cells⟩⟩ := column
    obtain ⟨contents, means⟩ := exists_forall₂ fits.means
    refine ⟨fits.suits, contents, means, cells, rfl, List.ext_getElem? fun row => ?_⟩
    have size : cells.length = values.length := shows.size
    rw [List.getElem?_map, List.getElem?_mapIdx]
    by_cases below : row < cells.length
    · have here := List.getElem?_eq_getElem below
      have listed := List.getElem?_eq_getElem (size ▸ below)
      obtain ⟨content, there, means⟩ := getElem?_of_forall₂ means listed
      rw [here, there, Option.map_some, Option.map_some, Entities.contentAt]
      cases counts : (entities.getD {}).special? row with
      | some special => rw [(shows.special row _ special here counts).1]
      | none => rw [(shows.plain row _ _ here listed counts).unique means]
    · have same : contents.length = values.length := means.length_eq.symm
      rw [List.getElem?_eq_none (by omega), List.getElem?_eq_none (by omega)]
      rfl

/-- A column that fits its type is read. -/
theorem exists_column {type : FieldType} {values : List Json} {entities : Option Entities}
    (fits : type.Fits values (entities.getD {})) (field : Nat) :
    ∃ column, DataContent.column field type values entities = .ok column := by
  obtain ⟨contents, means, cells, same⟩ := fits.exists_cells
  exact ⟨_, column_eq_ok_iff.2 ⟨fits.suits, contents, means, cells, rfl, same⟩⟩

/-- The entry of a column in a table. A column beyond the end of the table has no special floats. -/
def entitiesAt (table : List (Option Entities)) (field : Nat) : Entities :=
  table[field]?.join.getD {}

theorem entitiesAt_zero (table : List (Option Entities)) :
    entitiesAt table 0 = table.head?.join.getD {} := by
  rw [entitiesAt, List.head?_eq_getElem?]

theorem entitiesAt_tail (table : List (Option Entities)) (field : Nat) :
    entitiesAt table.tail field = entitiesAt table (field + 1) := by
  rw [entitiesAt, entitiesAt, List.getElem?_tail]

/-- A data section that is read with a list of types. -/
structure Fits (data : DataContent) (types : List FieldType) : Prop where
  fields : data.columns.length = types.length
  entries : data.entities.length ≤ types.length
  columns : ∀ (field : Nat) type values, types[field]? = some type →
    data.columns[field]? = some values → type.Fits values (entitiesAt data.entities field)
  even : ∀ values ∈ data.columns, ∀ others ∈ data.columns, values.length = others.length

/-- The columns that a data section tells with a list of types. -/
structure Tells (data : DataContent) (types : List FieldType) (columns : List Column) : Prop where
  types : columns.map Column.type = types
  columns : ∀ (field : Nat) column values, columns[field]? = some column →
    data.columns[field]? = some values → column.Shows values (entitiesAt data.entities field)

variable {types : List FieldType} {values : List (List Json)} {table : List (Option Entities)}
  {columns : List Column} {position : Nat}

/-- Columns are read one by one. -/
theorem columnsFrom_eq_ok_iff (same : values.length = types.length) :
    columnsFrom position types values table = .ok columns ↔
      (∀ (field : Nat) type listed, types[field]? = some type → values[field]? = some listed →
        type.Fits listed (entitiesAt table field)) ∧
      columns.map Column.type = types ∧
      ∀ (field : Nat) column listed, columns[field]? = some column →
        values[field]? = some listed → column.Shows listed (entitiesAt table field) := by
  induction types generalizing position values table columns with
  | nil =>
    cases List.eq_nil_of_length_eq_zero same
    cases columns <;> simp [columnsFrom]
  | cons type types ih =>
    cases values with
    | nil => cases same
    | cons listed values =>
      constructor
      · intro ran
        obtain ⟨column, here, ran⟩ := bind_eq_ok_iff.1 ran
        obtain ⟨others, later, ran⟩ := bind_eq_ok_iff.1 ran
        cases ran
        obtain ⟨fits, typed, shows⟩ := column_eq_ok_iff_shows.1 here
        obtain ⟨allFit, allTyped, allShow⟩ := (ih (Nat.succ.inj same)).1 later
        simp only [entitiesAt_tail] at allFit allShow
        rw [← entitiesAt_zero] at fits shows
        refine ⟨fun field => ?_, by rw [List.map_cons, typed, allTyped], fun field => ?_⟩
        · cases field with
          | zero =>
            rintro _ _ ⟨⟩ ⟨⟩
            exact fits
          | succ field => exact allFit field
        · cases field with
          | zero =>
            rintro _ _ ⟨⟩ ⟨⟩
            exact shows
          | succ field => exact allShow field
      · rintro ⟨fits, typed, shows⟩
        cases columns with
        | nil => cases typed
        | cons column columns =>
          rw [List.map_cons, List.cons.injEq] at typed
          have first : DataContent.column position type listed table.head?.join = .ok column := by
            rw [column_eq_ok_iff_shows, ← entitiesAt_zero]
            exact ⟨fits 0 type listed rfl rfl, typed.1, shows 0 column listed rfl rfl⟩
          have later : columnsFrom (position + 1) types values table.tail = .ok columns := by
            rw [ih (Nat.succ.inj same)]
            simp only [entitiesAt_tail]
            exact ⟨fun field => fits (field + 1), typed.2, fun field => shows (field + 1)⟩
          exact bind_eq_ok_iff.2 ⟨column, first, bind_eq_ok_iff.2 ⟨columns, later, rfl⟩⟩

/-- Columns that fit their types are read. -/
theorem exists_columnsFrom (position : Nat) (same : values.length = types.length)
    (fits : ∀ (field : Nat) type listed, types[field]? = some type → values[field]? = some listed →
      type.Fits listed (entitiesAt table field)) :
    ∃ columns, columnsFrom position types values table = .ok columns := by
  induction types generalizing position values table with
  | nil => exact ⟨[], rfl⟩
  | cons type types ih =>
    cases values with
    | nil => cases same
    | cons listed values =>
      have first := fits 0 type listed rfl rfl
      rw [entitiesAt_zero] at first
      have others : ∀ (field : Nat) type listed, types[field]? = some type →
          values[field]? = some listed → type.Fits listed (entitiesAt table.tail field) := by
        simp only [entitiesAt_tail]
        exact fun field => fits (field + 1)
      obtain ⟨column, here⟩ := exists_column first position
      obtain ⟨columns, later⟩ := ih (position + 1) (Nat.succ.inj same) others
      exact ⟨column :: columns, bind_eq_ok_iff.2 ⟨column, here, bind_eq_ok_iff.2
        ⟨columns, later, rfl⟩⟩⟩

variable {data : DataContent}

private theorem map_eq_map_of_getElem? {α β γ : Type} {f : α → γ} {g : β → γ} {first : List α}
    {second : List β} (length : first.length = second.length)
    (same : ∀ (index : Nat) a b, first[index]? = some a → second[index]? = some b → f a = g b) :
    first.map f = second.map g := by
  refine List.ext_getElem (by simpa using length) fun index below also => ?_
  rw [List.getElem_map, List.getElem_map]
  exact same index _ _ (List.getElem?_eq_getElem _) (List.getElem?_eq_getElem _)

/-- Columns have as many cells as there are values. -/
private theorem even_iff_of_shows (length : columns.length = values.length)
    (shows : ∀ (field : Nat) column listed, columns[field]? = some column →
      values[field]? = some listed → column.Shows listed (entitiesAt table field)) :
    (∀ column ∈ columns, ∀ other ∈ columns, column.size = other.size) ↔
      ∀ listed ∈ values, ∀ others ∈ values, listed.length = others.length := by
  have sizes : columns.map Column.size = values.map List.length :=
    map_eq_map_of_getElem? length fun field column listed here there =>
      (shows field column listed here there).size
  have same : (∀ size ∈ columns.map Column.size, ∀ other ∈ columns.map Column.size, size = other) ↔
      ∀ size ∈ values.map List.length, ∀ other ∈ values.map List.length, size = other := by
    rw [sizes]
  simpa only [List.forall_mem_map] using same

theorem columnsOf_eq_ok_iff_tells :
    data.columnsOf types = .ok columns ↔ data.Fits types ∧ data.Tells types columns := by
  rw [columnsOf_eq_ok_iff]
  constructor
  · rintro ⟨count, entries, read, even⟩
    obtain ⟨fits, typed, shows⟩ := (columnsFrom_eq_ok_iff count).1 read
    have length : columns.length = data.columns.length := by rw [count, ← typed, List.length_map]
    exact ⟨⟨count, entries, fits, (even_iff_of_shows length shows).1 even⟩, typed, shows⟩
  · rintro ⟨⟨count, entries, fits, even⟩, typed, shows⟩
    have length : columns.length = data.columns.length := by rw [count, ← typed, List.length_map]
    exact ⟨count, entries, (columnsFrom_eq_ok_iff count).2 ⟨fits, typed, shows⟩,
      (even_iff_of_shows length shows).2 even⟩

/-- A data section is read just when it fits the types, and then gives the columns that it tells. -/
theorem columnsOf_meaning (data : DataContent) (types : List FieldType) :
    ((∃ columns, data.columnsOf types = .ok columns) ↔ data.Fits types) ∧
      ∀ columns, data.columnsOf types = .ok columns ↔
        data.Fits types ∧ data.Tells types columns := by
  refine ⟨⟨?_, fun fits => ?_⟩, fun columns => columnsOf_eq_ok_iff_tells⟩
  · rintro ⟨columns, ran⟩
    exact (columnsOf_eq_ok_iff_tells.1 ran).1
  · obtain ⟨columns, read⟩ := exists_columnsFrom 0 fits.fields fits.columns
    obtain ⟨-, typed, shows⟩ := (columnsFrom_eq_ok_iff fits.fields).1 read
    exact ⟨columns, columnsOf_eq_ok_iff_tells.2 ⟨fits, typed, shows⟩⟩

/-- Nothing becomes a nan where something must be, and of two special floats one counts. -/
example : columnsOf
    ⟨[[.null, Json.ofNat 7, Json.ofNat 0]], [some { nan := [0, 1], negInfinity := [1, 1] }]⟩
      [⟨.float64, false⟩] = .ok [⟨⟨.float64, false⟩,
        ⟨[Cell.of Binary64.nan, Cell.of Binary64.negInfinity, Cell.of Binary64.zero]⟩⟩] := by rfl

end DataContent

end Columnar
