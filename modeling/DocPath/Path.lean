import DocPath.Config.Basic
import DocPath.Step

/-!
# Paths

A path is a list of navigators with its settings. It keeps nothing between two uses.

* `Path.ofSteps`, `Path.append` — paths from written steps, and one path after another;
* `Path.selectWith`, `Path.transformWith` — the traversals, with any terminal;
* `Path.select`, `Path.selectOne`, `Path.isMatch` — questions about a document;
* `Path.transform`, `Path.tryTransform`, `Path.setValue` — the document rebuilt.
-/

namespace DocPath

/-- Navigators to follow from left to right, and the settings that govern their use. -/
structure Path where
  navigators : List Navigator
  config : Config := {}

namespace Path

variable {σ : Type}

/-- The path written as a list of steps. -/
def ofSteps (steps : List Step) (config : Config := {}) : Path := ⟨steps.map Step.resolve, config⟩

/-- The path that follows all the given paths one after another, under default settings. -/
def join (paths : List Path) : Path := ⟨paths.flatMap navigators, {}⟩

def length (p : Path) : Nat := p.navigators.length

def isEmpty (p : Path) : Bool := p.navigators.isEmpty

/-- The text of a path. -/
def text (p : Path) : String := Navigator.pathText p.navigators

/-! ### Traversals -/

/-- Calls `terminal` on every focus, in order. -/
def selectWith (p : Path) (v : Value) (terminal : Value → Action σ Unit) : Action σ Unit :=
  Navigator.selectAlong p.navigators v terminal

/-- Rebuilds a focus with every focus of the path replaced by the update's answer. -/
def transformWith (p : Path) (s : Focus) (update : Focus → Action σ Focus) : Action σ Focus :=
  Navigator.transformAlong p.navigators s update

/-! ### Reading -/

/-- Every focus, in the order of the traversal. -/
def select (p : Path) (v : Value) : Except NavError (List Value) :=
  match (p.selectWith v fun w => modify (w :: ·)).exec [] with
  | (.ok _, focuses) => .ok focuses.reverse
  | (.error e, _) => .error e

/-- The choice made so far among the defined focuses. -/
structure Choice where
  chosen : Option Value := none
  count : Nat := 0

/-- Takes one more focus into account; an undefined one does not count. -/
def Choice.add (mode : SelectOneMode) (c : Choice) (w : Value) : Choice :=
  if w.isDefined then
    { chosen := if mode = .first then c.chosen.or (some w) else some w, count := c.count + 1 }
  else c

/-- The one defined focus, or none. Among several the mode decides. -/
def selectOne (p : Path) (v : Value) : Except NavError (Option Value) :=
  let mode := p.config.selectOne
  match (p.selectWith v fun w => modify (·.add mode w)).exec ({} : Choice) with
  | (.ok _, c) =>
    if mode = .strict ∧ c.count > 1 then .error (.multipleFocuses c.count) else .ok c.chosen
  | (.error e, _) => .error e

/-- Whether the path reaches something defined. -/
def isMatch (p : Path) (v : Value) : Except NavError Bool := Navigator.matchesAlong p.navigators v

/-! ### Rebuilding -/

/-- The document that a transform leaves. -/
def finish (p : Path) : Focus → Except NavError Value
  | .value v => .ok v
  | .absent => if p.config.allowRootRemoval then .ok .null else .error .rootRemoved

/-- Rebuilds a document by an update that may fail. -/
def tryTransform (p : Path) (update : Focus → Action σ Focus) (v : Value) : Action σ Value := do
  let r ← p.transformWith (.value v) update
  Action.ofExcept (p.finish r)

/-- Rebuilds a document by an update that cannot fail. -/
def transform (p : Path) (update : Focus → StateM σ Focus) (v : Value) : Action σ Value :=
  p.tryTransform (fun f => ExceptT.lift (update f)) v

/-- Rebuilds a document by a function of the focus. -/
def map (p : Path) (f : Focus → Focus) (v : Value) : Except NavError Value :=
  ((p.transform (fun s => pure (f s)) v : Action Unit Value).exec ()).1

/-- Replaces every focus by `new`; `absent` removes them. -/
def setValue (p : Path) (new : Focus) (v : Value) : Except NavError Value := p.map (fun _ => new) v

end Path

end DocPath
