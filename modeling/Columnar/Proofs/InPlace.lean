import Columnar.InPlace

/-! What steps leave of a state. A step that is only asked for its result leaves the state alone; a
step that changes the state is not undone. Steps settle on a state when they are made as a whole or
leave the state as it was. -/
namespace Columnar.InPlace

variable {σ α β : Type}

theorem runOn_bind (steps : InPlace σ α) (next : α → InPlace σ β) (now : σ) :
    runOn (steps >>= next) now =
      match steps.runOn now with
      | (.ok result, after) => (next result).runOn after
      | (.error error, after) => (.error error, after) := by
  rw [runOn, ExceptT.run_bind, StateT.run_bind]
  change _ = match StateT.run (ExceptT.run steps) now with
    | (.ok result, after) => StateT.run (ExceptT.run (next result)) after
    | (.error error, after) => (.error error, after)
  generalize StateT.run (ExceptT.run steps) now = outcome
  obtain ⟨result | result, after⟩ := outcome <;> rfl

theorem runOn_check_bind (answer : Except Error α) (next : α → InPlace σ β) (now : σ) :
    runOn (check answer >>= next) now =
      match answer with
      | .ok result => (next result).runOn now
      | .error error => (.error error, now) := by
  rw [runOn_bind]
  cases answer <;> rfl

theorem runOn_modify_bind (change : σ → σ) (next : PUnit → InPlace σ β) (now : σ) :
    runOn (modify change >>= next) now = (next ⟨⟩).runOn (change now) := by
  rw [runOn_bind]
  rfl

theorem runOn_state_bind (next : σ → InPlace σ β) (now : σ) :
    runOn (state >>= next) now = (next now).runOn now := by
  rw [runOn_bind]
  rfl

theorem runOn_throw (error : Error) (now : σ) :
    runOn (throw error : InPlace σ α) now = (.error error, now) := rfl

/-- Steps that are made as one change, or refused with the state as it was. -/
def Settles (steps : InPlace σ Unit) (now : σ) (whole : Except Error σ) : Prop :=
  steps.runOn now =
    match whole with
    | .ok after => (.ok (), after)
    | .error error => (.error error, now)

variable {now : σ}

theorem settles_throw (error : Error) : (throw error : InPlace σ Unit).Settles now (.error error) :=
  runOn_throw error now

theorem settles_state_bind {next : σ → InPlace σ Unit} {whole : Except Error σ}
    (later : (next now).Settles now whole) : Settles (state >>= next) now whole :=
  (runOn_state_bind next now).trans later

/-- Nothing has changed yet when a check refuses. -/
theorem settles_check_bind {answer : Except Error α} {next : α → InPlace σ Unit}
    {whole : α → Except Error σ}
    (later : ∀ result, answer = .ok result → (next result).Settles now (whole result)) :
    Settles (check answer >>= next) now (answer >>= whole) := by
  unfold Settles
  rw [runOn_check_bind]
  cases answer with
  | ok result => exact later result rfl
  | error error => rfl

theorem settles_modify (change : σ → σ) : Settles (modify change) now (.ok (change now)) := rfl

/-- Steps that settle on a part of the state settle on the whole of it. -/
theorem settles_onPart {τ : Type} {part : σ → τ} {put : τ → σ → σ} {steps : InPlace τ Unit}
    {whole : Except Error τ} (settled : steps.Settles (part now) whole)
    (same : put (part now) now = now) :
    Settles (onPart part put steps) now (whole.map fun after => put after now) := by
  change (let (answer, after) := steps.runOn (part now); (answer, put after now)) = _
  rw [settled]
  cases whole with
  | ok after => rfl
  | error error => exact congrArg (Except.error error, ·) same

/-- Steps that settle and are refused have left the state as it was. -/
theorem Settles.refused {steps : InPlace σ Unit} {whole : Except Error σ} {error : Error}
    (settled : steps.Settles now whole) (refused : whole = .error error) :
    steps.runOn now = (.error error, now) := by
  rw [settled, refused]

theorem Settles.done {steps : InPlace σ Unit} {whole : Except Error σ} {after : σ}
    (settled : steps.Settles now whole) (done : whole = .ok after) :
    steps.runOn now = (.ok (), after) := by
  rw [settled, done]

end Columnar.InPlace
