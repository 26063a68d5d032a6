import Columnar.Frame.InPlace
import Columnar.Frame.Input

/-! Calls on a frame that is filled where it stands. Whatever is refused, and by whom, the frame as it
is then takes the next call. -/
namespace Columnar

/-- A call on a frame under construction. -/
inductive InputCall where
  | set (field row : Nat) (value : Value)
  | setRaw (field row : Nat) (value : Value)
  | setNames (names : List String)
  | setLabels (field : Nat) (labels : Labels)

namespace FrameInput

open InPlace (check state)

/-- What a call makes of the whole, if it is granted. -/
def call (input : FrameInput) : InputCall → Except Error FrameInput
  | .set field row value => input.set field row value
  | .setRaw field row value => input.setRaw field row value
  | .setNames names => input.setNames names
  | .setLabels field labels => input.setLabels field labels

/-- Steps on the frame under construction. -/
def onFrame (steps : InPlace Frame Unit) : InPlace FrameInput Unit :=
  InPlace.onPart frame (fun frame input => { input with frame }) steps

/-- What a call does, step by step. -/
def steps : InputCall → InPlace FrameInput Unit
  | .set field row value => do
    let input ← state
    match input.conversions[field]? with
    | none => throw (.indexOutOfRange field input.conversions.length)
    | some conversion =>
      let converted ← check ((conversion.convert value).mapError (inCell field row))
      onFrame (Frame.storeCell field row converted)
  | .setRaw field row value => onFrame (Frame.storeCell field row value)
  | .setNames names => onFrame do
    let frame ← state
    check <|
      if names.length ≠ frame.fields.length then .error (.fieldCount frame.fields.length names.length)
      else .ok ()
    Frame.changeEach (fun field name => { field with name }) 0 names
  | .setLabels index labels => onFrame do
    let frame ← state
    let field ← check (frame.field index)
    Frame.putField index { field with labels }

/-- What a call answers, and the frame that it leaves. -/
def perform (input : FrameInput) (call : InputCall) : Except Error Unit × FrameInput :=
  (steps call).runOn input

/-- The frame after calls, one after the other. -/
def performAll (input : FrameInput) (calls : List InputCall) : FrameInput :=
  calls.foldl (fun input call => (input.perform call).2) input

end FrameInput

end Columnar
