import TableRecords.Error

/-!
# Actions

An action works on a state and gives a result or an error; what it did to the state before an
error stays. `onFirst` and `onSecond` run an action on one half of a paired state.
-/

namespace TableRecords

/-- An action on states of type `σ`. -/
abbrev Action (σ α : Type) : Type := ExceptT Error (StateM σ) α

namespace Action

/-- The action with a given result and following state. -/
def of {σ α : Type} (f : σ → Except Error α × σ) : Action σ α := f

/-- The result and the following state of an action. -/
def exec {σ α : Type} (a : Action σ α) (s : σ) : Except Error α × σ := a s

/-- Runs an action on the first half of a state. -/
def onFirst {σ τ α : Type} (a : Action σ α) : Action (σ × τ) α :=
  of fun (s, t) => let (r, s) := a.exec s; (r, (s, t))

/-- Runs an action on the second half of a state. -/
def onSecond {σ τ α : Type} (a : Action τ α) : Action (σ × τ) α :=
  of fun (s, t) => let (r, t) := a.exec t; (r, (s, t))

end Action
end TableRecords
