import Columnar.Frame.Input.Calls
import Columnar.Proofs.Conversion
import Columnar.Proofs.Frame.InPlace

/-! Runs of calls on a frame that is filled cell by cell. A call is granted as a whole or leaves
everything as it was, no call changes the number of fields, their types or their lengths, and a cell
holds what was stored in it last. -/
namespace Columnar

/-- The value that a call stores in a cell when it is granted: the one it is given, or what the
conversion of the field makes of it. -/
def InputCall.stores? (conversions : List Conversion) (field row : Nat) : InputCall → Option Value
  | .set index place value =>
    if (index, place) = (field, row) then
      conversions[index]?.bind fun conversion => (conversion.convert value).toOption
    else none
  | .setRaw index place value => if (index, place) = (field, row) then some value else none
  | .setNames _ | .setLabels .. => none

namespace FrameInput

variable {input after : FrameInput} {conversions : List Conversion} {rows field row : Nat}
variable {value : Value}

section Steps

theorem set_of_no_conversion (absent : input.conversions[field]? = none) :
    input.set field row value = .error (.indexOutOfRange field input.conversions.length) := by
  rw [set, absent]

theorem set_of_conversion {conversion : Conversion}
    (found : input.conversions[field]? = some conversion) :
    input.set field row value =
      (conversion.convert value).mapError (inCell field row) >>= input.setRaw field row := by
  rw [set, found]
  dsimp only
  cases conversion.convert value <;> rfl

theorem onFrame_settles {steps : InPlace Frame Unit} {whole : Except Error Frame}
    (settled : steps.Settles input.frame whole) :
    (onFrame steps).Settles input (whole.map fun frame => { input with frame }) :=
  InPlace.settles_onPart settled rfl

theorem set_settles (input : FrameInput) (field row : Nat) (value : Value) :
    (steps (.set field row value)).Settles input (input.set field row value) := by
  refine InPlace.settles_state_bind ?_
  cases found : input.conversions[field]? with
  | none =>
    rw [set_of_no_conversion found]
    exact InPlace.settles_throw _
  | some conversion =>
    rw [set_of_conversion found]
    exact InPlace.settles_check_bind fun converted _ =>
      onFrame_settles (Frame.storeCell_settles input.frame field row converted)

/-- Fields are renamed one after the other, but only when there is a name for each of them. -/
theorem setNames_settles (input : FrameInput) (names : List String) :
    (steps (.setNames names)).Settles input (input.setNames names) := by
  let counted : Except Error Unit :=
    if names.length ≠ input.frame.fields.length then
      .error (.fieldCount input.frame.fields.length names.length)
    else .ok ()
  have whole : input.setNames names =
      (counted >>= fun _ => Except.ok { input.frame with
        fields := List.zipWith (fun (field : Field) name => { field with name })
          input.frame.fields names }).map fun frame => { input with frame } := by
    simp only [setNames, counted]
    split <;> rfl
  rw [whole]
  refine onFrame_settles (InPlace.settles_state_bind (InPlace.settles_check_bind fun _ same => ?_))
  refine Frame.changeEach_settles ?_
  by_contra differs
  rw [if_pos differs] at same
  cases same

theorem setLabels_settles (input : FrameInput) (index : Nat) (labels : Labels) :
    (steps (.setLabels index labels)).Settles input (input.setLabels index labels) := by
  have whole : input.setLabels index labels =
      (input.frame.field index >>= fun field =>
        Except.ok (input.frame.withFieldAt index { field with labels })).map
          fun frame => { input with frame } := by
    rw [setLabels]
    cases input.frame.field index <;> rfl
  rw [whole]
  exact onFrame_settles (InPlace.settles_state_bind (InPlace.settles_check_bind fun field _ =>
    InPlace.settles_modify _))

/-- A call is granted as a whole, or refused and nothing has happened. -/
theorem steps_settle (input : FrameInput) (call : InputCall) :
    (steps call).Settles input (input.call call) := by
  cases call with
  | set field row value => exact set_settles input field row value
  | setRaw field row value =>
    exact onFrame_settles (Frame.storeCell_settles input.frame field row value)
  | setNames names => exact setNames_settles input names
  | setLabels index labels => exact setLabels_settles input index labels

end Steps

section Granted

/-- What a granted call leaves as it is, and what it leaves in every cell. -/
structure Granted (input : FrameInput) (call : InputCall) (after : FrameInput) : Prop where
  conversions : after.conversions = input.conversions
  shape : after.frame.fields.map Field.shape = input.frame.fields.map Field.shape
  cells : ∀ field row, after.frame.get field row =
    match call.stores? input.conversions field row with
    | some value => .ok value
    | none => input.frame.get field row

theorem oneCell_of_setRaw (granted : input.setRaw field row value = .ok after) :
    after.conversions = input.conversions ∧ input.frame.OneCell field row value after.frame := by
  obtain ⟨frame, stored, rfl⟩ := map_eq_ok_iff.1 granted
  exact ⟨rfl, Frame.oneCell_of_set stored⟩

theorem exists_conversion_of_set (granted : input.set field row value = .ok after) :
    ∃ conversion converted, input.conversions[field]? = some conversion ∧
      conversion.convert value = .ok converted ∧ input.setRaw field row converted = .ok after := by
  cases found : input.conversions[field]? with
  | none =>
    rw [set_of_no_conversion found] at granted
    cases granted
  | some conversion =>
    rw [set_of_conversion found] at granted
    obtain ⟨converted, made, stored⟩ := bind_eq_ok_iff.1 granted
    exact ⟨conversion, converted, rfl, mapError_eq_ok_iff.1 made, stored⟩

/-- A call that stores one value. -/
theorem granted_of_stored {call : InputCall} (stored : input.setRaw field row value = .ok after)
    (here : call.stores? input.conversions field row = some value)
    (elsewhere : ∀ other place, (other, place) ≠ (field, row) →
      call.stores? input.conversions other place = none) : input.Granted call after := by
  obtain ⟨same, cell⟩ := oneCell_of_setRaw stored
  refine ⟨same, cell.shape, fun other place => ?_⟩
  by_cases target : (other, place) = (field, row)
  · cases target
    rw [here]
    exact cell.here
  · rw [elsewhere other place target]
    exact cell.others other place target

/-- A call that leaves the columns alone. -/
theorem granted_of_columns {call : InputCall} (same : after.conversions = input.conversions)
    (columns : after.frame.fields.map Field.column = input.frame.fields.map Field.column)
    (nowhere : ∀ field row, call.stores? input.conversions field row = none) :
    input.Granted call after := by
  refine ⟨same, Frame.shape_of_columns columns, fun field row => ?_⟩
  rw [nowhere]
  exact Frame.get_of_columns columns field row

theorem granted_of_call {call : InputCall} (ran : input.call call = .ok after) :
    input.Granted call after := by
  cases call with
  | set field row value =>
    obtain ⟨conversion, converted, found, made, stored⟩ := exists_conversion_of_set ran
    refine granted_of_stored stored ?_ fun other place differ => if_neg differ.symm
    simp [InputCall.stores?, found, made, Except.toOption]
  | setRaw field row value =>
    exact granted_of_stored ran (if_pos rfl) fun other place differ => if_neg differ.symm
  | setNames names =>
    rw [call, setNames] at ran
    split at ran
    · cases ran
    next same =>
      cases ran
      have columns : ∀ (field : Field) (name : String),
          Field.column { field with name } = field.column := fun _ _ => rfl
      exact granted_of_columns rfl (Frame.map_zipWith_change columns (not_not.1 same)) fun _ _ => rfl
  | setLabels index labels =>
    obtain ⟨found, there, made⟩ := bind_eq_ok_iff.1 ran
    cases made
    refine granted_of_columns rfl ?_ fun _ _ => rfl
    exact Frame.map_withFieldAt (Frame.field_eq_ok_iff.1 there) rfl

end Granted

section Runs

/-- One field for every conversion, of the type of its results and with a number of rows. -/
structure Shaped (conversions : List Conversion) (rows : Nat) (input : FrameInput) : Prop where
  same : input.conversions = conversions
  fields : input.frame.fields.map Field.shape =
    conversions.map fun conversion => (conversion.output, rows)

theorem shaped_start (conversions : List Conversion) (rows : Nat) :
    (start conversions rows).Shaped conversions rows := by
  refine ⟨rfl, ?_⟩
  rw [start, List.map_map]
  refine List.map_congr_left fun conversion _ => Prod.ext rfl ?_
  exact List.length_replicate

theorem perform_of_granted {call : InputCall} (ran : input.call call = .ok after) :
    input.perform call = (.ok (), after) := (steps_settle input call).done ran

/-- A refused call leaves everything as it was. -/
theorem perform_of_refused {call : InputCall} {error : Error}
    (refused : input.call call = .error error) : input.perform call = (.error error, input) :=
  (steps_settle input call).refused refused

theorem refused_of_perform {call : InputCall} {error : Error}
    (ran : input.perform call = (.error error, after)) :
    input.call call = .error error ∧ after = input := by
  cases answer : input.call call with
  | ok granted =>
    rw [perform_of_granted answer] at ran
    cases ran
  | error found =>
    rw [perform_of_refused answer] at ran
    cases ran
    exact ⟨rfl, rfl⟩

theorem granted_of_perform {call : InputCall} (ran : input.perform call = (.ok (), after)) :
    input.call call = .ok after := by
  cases answer : input.call call with
  | ok granted =>
    rw [perform_of_granted answer] at ran
    cases ran
    rfl
  | error found =>
    rw [perform_of_refused answer] at ran
    cases ran

theorem perform_keeps {call : InputCall} (shaped : input.Shaped conversions rows) :
    (input.perform call).2.Shaped conversions rows := by
  cases ran : input.call call with
  | error error => rwa [perform_of_refused ran]
  | ok after =>
    have granted := granted_of_call ran
    rw [perform_of_granted ran]
    exact ⟨granted.conversions.trans shaped.same, granted.shape.trans shaped.fields⟩

theorem performAll_keeps (shaped : input.Shaped conversions rows) (calls : List InputCall) :
    (input.performAll calls).Shaped conversions rows := by
  induction calls generalizing input with
  | nil => exact shaped
  | cons call rest ih => exact ih (perform_keeps shaped)

/-- The calls of a run that are granted, in their order. -/
def granted (input : FrameInput) : List InputCall → List InputCall
  | [] => []
  | call :: rest =>
    match input.perform call with
    | (.ok (), after) => call :: granted after rest
    | (.error _, after) => granted after rest

/-- The value that is stored last in a cell by the granted calls of a run, if any of them stores one
there. -/
def lastStored? (input : FrameInput) (calls : List InputCall) (field row : Nat) : Option Value :=
  ((input.granted calls).filterMap (·.stores? input.conversions field row)).getLast?

/-- A run leaves in a cell what was stored there last, or else what was there before. -/
theorem get_performAll (input : FrameInput) (calls : List InputCall) (field row : Nat) :
    (input.performAll calls).frame.get field row =
      match input.lastStored? calls field row with
      | some value => .ok value
      | none => input.frame.get field row := by
  induction calls generalizing input with
  | nil => rfl
  | cons call rest ih =>
    rw [performAll, List.foldl_cons, lastStored?, granted]
    cases ran : input.call call with
    | error error =>
      rw [perform_of_refused ran]
      exact ih input
    | ok after =>
      have change := granted_of_call ran
      have later := ih after
      rw [lastStored?, change.conversions] at later
      rw [perform_of_granted ran]
      dsimp only
      rw [← performAll, later, List.filterMap_cons]
      cases stored : call.stores? input.conversions field row with
      | none =>
        rw [change.cells, stored]
      | some value =>
        dsimp only
        rw [List.getLast?_cons, change.cells, stored]
        cases List.getLast? _ <;> rfl

theorem get_start {conversion : Conversion} (found : conversions[field]? = some conversion)
    (inside : row < rows) :
    (start conversions rows).frame.get field row = .ok (Cell.zero conversion.output).value := by
  have there : (start conversions rows).frame.fields[field]? =
      some (Field.zeros "" conversion.output rows) := by
    rw [start, List.getElem?_map, found, Option.map_some]
  have cell : (Column.zeros conversion.output rows).get? row =
      some (Cell.zero conversion.output).value := by
    have blank := List.getElem?_replicate_of_lt (a := Cell.zero conversion.output) inside
    exact congrArg (Option.map Cell.value) blank
  rw [Frame.get, Frame.field_eq_ok_iff.2 there]
  change Column.get (Column.zeros conversion.output rows) row = _
  rw [Column.get, cell]

end Runs

theorem Shaped.exists_field (shaped : input.Shaped conversions rows) {conversion : Conversion}
    (found : conversions[field]? = some conversion) :
    ∃ column, input.frame.fields[field]? = some column ∧ column.type = conversion.output ∧
      column.size = rows := by
  have shapes := congrArg (·[field]?) shaped.fields
  simp only [List.getElem?_map, found, Option.map_some, Option.map_eq_some_iff] at shapes
  obtain ⟨column, there, shape⟩ := shapes
  exact ⟨column, there, congrArg Prod.fst shape, congrArg Prod.snd shape⟩

/-- Where there is a cell, what a conversion gives is stored if the type takes it. -/
theorem exists_set (shaped : input.Shaped conversions rows) {conversion : Conversion}
    (found : conversions[field]? = some conversion) (inside : row < rows) {converted : Value}
    (made : conversion.convert value = .ok converted) (takes : conversion.output.Takes converted) :
    ∃ after, input.set field row value = .ok after := by
  obtain ⟨column, there, typed, size⟩ := shaped.exists_field found
  obtain ⟨frame, stored⟩ := Frame.set_of_takes there (size ▸ inside) (typed ▸ takes)
  rw [← shaped.same] at found
  rw [set_of_conversion found, made]
  exact ⟨{ input with frame }, map_eq_ok_iff.2 ⟨frame, stored, rfl⟩⟩

/-- Where there is a cell, a total conversion is refused only for a fault of its own. -/
theorem refused_of_total (shaped : input.Shaped conversions rows) {conversion : Conversion}
    (found : conversions[field]? = some conversion) (total : conversion.Total) (inside : row < rows)
    {error : Error} (refused : input.set field row value = .error error) :
    ∃ fault, conversion.convert value = .error (.conversion fault) ∧
      error = .conversion (.inCell field row fault) := by
  rcases total value with ⟨converted, made, takes⟩ | ⟨fault, made⟩
  · obtain ⟨after, stored⟩ := exists_set shaped found inside made takes
    cases stored.symm.trans refused
  · rw [← shaped.same] at found
    rw [set_of_conversion found, made] at refused
    cases refused
    exact ⟨fault, made, rfl⟩

/-- What callers of a frame under construction can rely on, whatever the conversions do: its shape, that
a refused call leaves everything as it was, that a value which is set changes its cell, to what the
conversion gives, and nothing else, that it is set when the type takes that, and that the conversions
which are there already are refused in no cell but for a fault of their own. -/
structure Reliable (conversions : List Conversion) (rows : Nat) (input : FrameInput) : Prop where
  shaped : input.Shaped conversions rows
  refused : ∀ call error after, input.perform call = (.error error, after) →
    after = input ∧ input.call call = .error error
  set : ∀ field row value after, input.perform (.set field row value) = (.ok (), after) →
    input.set field row value = .ok after ∧
      ∃ conversion converted, conversions[field]? = some conversion ∧
        conversion.convert value = .ok converted ∧ after.conversions = conversions ∧
        input.frame.OneCell field row converted after.frame
  taken : ∀ field conversion row value converted, conversions[field]? = some conversion →
    row < rows → conversion.convert value = .ok converted → conversion.output.Takes converted →
    ∃ after, input.perform (.set field row value) = (.ok (), after)
  stock : ∀ field conversion row value error after, conversions[field]? = some conversion →
    conversion ∈ Conversion.stock → row < rows →
    input.perform (.set field row value) = (.error error, after) →
    ∃ fault, conversion.convert value = .error (.conversion fault) ∧
      error = .conversion (.inCell field row fault)

theorem reliable_of_shaped (shaped : input.Shaped conversions rows) :
    input.Reliable conversions rows where
  shaped := shaped
  refused call error after ran := (refused_of_perform ran).symm
  set field row value after ran := by
    have granted := granted_of_perform ran
    obtain ⟨conversion, converted, found, made, stored⟩ := exists_conversion_of_set granted
    obtain ⟨same, cell⟩ := oneCell_of_setRaw stored
    rw [shaped.same] at found same
    exact ⟨granted, conversion, converted, found, made, same, cell⟩
  taken field conversion row value converted found inside made takes := by
    obtain ⟨after, stored⟩ := exists_set shaped found inside made takes
    exact ⟨after, perform_of_granted stored⟩
  stock field conversion row value error after found listed inside ran :=
    refused_of_total shaped found (Conversion.total_of_stock listed) inside
      (refused_of_perform ran).1

/-- After any calls, a frame under construction has one field for every conversion, of the type of its
results and of the given number of rows, and can be relied on; each cell holds what was stored in it
last, or what new cells hold. -/
theorem performAll_start (conversions : List Conversion) (rows : Nat) (calls : List InputCall) :
    ((start conversions rows).performAll calls).Reliable conversions rows ∧
    ∀ field conversion row, conversions[field]? = some conversion → row < rows →
      ((start conversions rows).performAll calls).frame.get field row =
        .ok (((start conversions rows).lastStored? calls field row).getD
          (Cell.zero conversion.output).value) := by
  refine ⟨reliable_of_shaped (performAll_keeps (shaped_start conversions rows) calls), ?_⟩
  intro field conversion row found inside
  rw [get_performAll, get_start found inside]
  cases lastStored? _ calls field row <;> rfl

/-- Power as a number and a phase as it is given. -/
def meterConversions : List Conversion :=
  [Conversion.numericToFloat64, Conversion.identity ⟨.int8, false⟩]

/-- A power that is corrected later, and a phase that stays when a null is given for it. -/
def meterCalls : List InputCall :=
  [.set 0 1 (.of .int8 (3 : Int8)), .setRaw 1 0 (.of .int8 (7 : Int8)), .setNames ["power"],
    .set 1 0 .null, .set 0 1 (.of .int8 (5 : Int8))]

theorem performAll_meterCalls :
    ((start meterConversions 2).performAll meterCalls).Shaped meterConversions 2 ∧
      ((start meterConversions 2).performAll meterCalls).frame.get 0 1 =
        .ok (.of .float64 (Binary64.ofInt 5)) ∧
      ((start meterConversions 2).performAll meterCalls).frame.get 1 0 = .ok (.of .int8 (7 : Int8)) ∧
      ((start meterConversions 2).performAll meterCalls).frame.get 1 1 = .ok (.of .int8 (0 : Int8)) ∧
      ((start meterConversions 2).performAll meterCalls).perform (.set 0 0 (.of .bool true)) =
        (.error (.conversion (.inCell 0 0 (.notNumber "bool"))),
          (start meterConversions 2).performAll meterCalls) := by
  obtain ⟨reliable, cells⟩ := performAll_start meterConversions 2 meterCalls
  refine ⟨reliable.shaped, cells 0 _ 1 rfl (by decide), cells 1 _ 0 rfl (by decide),
    cells 1 _ 1 rfl (by decide), ?_⟩
  obtain ⟨error, after, ran⟩ : ∃ error after, ((start meterConversions 2).performAll
      meterCalls).perform (.set 0 0 (.of .bool true)) = (.error error, after) := ⟨_, _, rfl⟩
  have same := (reliable.refused _ _ _ ran).1
  obtain ⟨fault, why, named⟩ := reliable.stock 0 _ 0 _ error after rfl
    (by simp [Conversion.stock]) (by decide) ran
  cases why
  rw [ran, same, named]
  rfl

end FrameInput

end Columnar
