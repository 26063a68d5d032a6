import Columnar.Error

/-! Steps on a state that is changed where it stands. What has been changed stays changed when a
later step is refused, so that the state after a refusal is an outcome too. -/
namespace Columnar

/-- Steps on a state, any of which may be refused. -/
abbrev InPlace (σ : Type) := ExceptT Error (StateM σ)

namespace InPlace

/-- What steps give or why they are refused, and the state that they leave. -/
def runOn {σ α : Type} (steps : InPlace σ α) (state : σ) : Except Error α × σ :=
  StateT.run (ExceptT.run steps) state

/-- The state as it is now. -/
def state {σ : Type} : InPlace σ σ := get

/-- A step that is decided without a change of the state. -/
def check {σ α : Type} (answer : Except Error α) : InPlace σ α := liftM answer

/-- Steps on a part of the state. What they leave of the part is put back, refused or not. -/
def onPart {σ τ α : Type} (part : σ → τ) (put : τ → σ → σ) (steps : InPlace τ α) : InPlace σ α :=
  ExceptT.mk fun state =>
    let (answer, after) := steps.runOn (part state)
    (answer, put after state)

end InPlace

end Columnar
