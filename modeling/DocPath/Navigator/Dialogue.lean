import DocPath.Action

/-!
# Dialogues

A navigator that the user supplies talks to the rest of its path: it hands over a focus, gets the
answer, and goes on, until it is done or gives up. It may ask any number of times, look at a
failed answer, and answer a failure with something else.

* `Dialogue Q A R` — such a talk, with questions `Q`, answers `A` and result `R`;
* `Dialogue.run` — the talk with a given rest of the path.
-/

namespace DocPath

/-- A talk that asks questions of type `Q`, is answered by an `A` or an error, and ends in an
`R` or an error. -/
inductive Dialogue (Q A R : Type) where
  | done (r : R)
  | fail (e : NavError)
  | ask (q : Q) (reply : Except NavError A → Dialogue Q A R)

namespace Dialogue

variable {Q A R : Type} {σ : Type}

/-- Asks one question and goes on with its answer; a failed answer ends the talk. -/
def askThen (q : Q) (k : A → Dialogue Q A R) : Dialogue Q A R :=
  .ask q fun
    | .ok a => k a
    | .error e => .fail e

/-- Asks one question and ends with its answer. -/
def forward (q : Q) : Dialogue Q A A := askThen q .done

/-- Carries the talk out, `next` answering the questions. -/
def run (next : Q → Action σ A) : Dialogue Q A R → Action σ R
  | .done r => pure r
  | .fail e => throw e
  | .ask q reply => fun s =>
    match (next q).exec s with
    | (answer, s') => (run next (reply answer)).exec s'

end Dialogue

end DocPath
