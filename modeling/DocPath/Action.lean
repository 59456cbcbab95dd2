import DocPath.Focus
import DocPath.NavError

/-!
# Actions

What runs at the places that a path reaches: a computation that may fail with a `NavError` and
that reads and writes a state. The state survives a failure, so that what happened before it can
still be told.

* `Action` — such a computation;
* `Action.logged` — an update that also writes down every focus it is called with.
-/

namespace DocPath

/-- A computation over a state `σ` that may fail; a failure keeps the state reached so far. -/
abbrev Action (σ : Type) := ExceptT NavError (StateM σ)

namespace Action

variable {σ α : Type}

/-- Runs an action from a state. -/
def exec (a : Action σ α) (s : σ) : Except NavError α × σ := a.run.run s

/-- An action that neither reads nor writes the state. -/
def ofExcept : Except NavError α → Action σ α
  | .ok a => pure a
  | .error e => throw e

/-- Runs an action on the first half of a larger state. -/
def onFirst {τ : Type} (a : Action σ α) : Action (σ × τ) α := fun s =>
  match a.exec s.1 with
  | (r, s') => (r, (s', s.2))

/-- Calls `f`, after writing down what it is called with. -/
def logged {β : Type} (f : β → Action σ α) (x : β) : Action (σ × List β) α := do
  modify fun s => (s.1, s.2 ++ [x])
  onFirst (f x)

end Action

end DocPath
