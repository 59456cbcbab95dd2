import DocPath.Navigator.Basic
import DocPath.Sequence

/-!
# Selecting

Selecting through a navigator hands the focuses that it reaches, in order, to whatever comes
next. What a built-in navigator reaches is a list fixed by the value alone, or an error before
the first focus.

* `Navigator.elements`, `Navigator.childAt`, … — what single navigators reach;
* `Navigator.select` — hands on the focuses of one navigator;
* `Navigator.selectAlong` — follows a list of navigators and calls a terminal at its end;
* `Navigator.matchesAlong` — whether a list of navigators reaches something defined.
-/

namespace DocPath

namespace Navigator

variable {σ : Type}

/-! ### What single navigators reach -/

/-- The elements of a sequence and the pairs of a mapping; a leaf has none. -/
def elements : Value → List Value
  | .sequence items => items
  | .mapping m => Value.pairs m
  | _ => []

/-- The values of a mapping. -/
def valuesIn : Value → Except NavError (List Value)
  | .mapping m => .ok (m.map Prod.snd)
  | .sequence items => .error (mapVals.wantsMapping (Value.sequence items).kind)
  | _ => .ok []

/-- The keys of a mapping, as strings. -/
def keysIn : Value → Except NavError (List Value)
  | .mapping m => .ok (m.map fun e => .string e.1)
  | .sequence items => .error (mapKeys.wantsMapping (Value.sequence items).kind)
  | _ => .ok []

/-- The first element of a sequence, if it has one. -/
def firstIn : Value → Except NavError (List Value)
  | .sequence items => .ok items.head?.toList
  | .mapping m => .error (first.wantsSequence (Value.mapping m).kind)
  | _ => .ok []

/-- The last element of a sequence, if it has one. -/
def lastIn : Value → Except NavError (List Value)
  | .sequence items => .ok items.getLast?.toList
  | .mapping m => .error (last.wantsSequence (Value.mapping m).kind)
  | _ => .ok []

/-- The value under a key, else `undefined`. -/
def valueUnder (name : String) : Value → Value
  | .mapping m => (Entries.get? m name).getD .undefined
  | _ => .undefined

/-- The element at an index, else `undefined`. -/
def itemUnder (index : Int64) : Value → Value
  | .sequence items => (Sequence.itemAt? items index).getD .undefined
  | _ => .undefined

/-- The part of a mapping under the named keys; a void value has the empty part. -/
def partOf (names : List String) : Value → Except NavError Value
  | .mapping m => .ok (.mapping (Entries.pick names m))
  | v => if v.isVoid then .ok (.mapping []) else .error ((submap names).wantsMapping v.kind)

/-! ### Matching elements -/

/-- Every element with the answer of `holds`; the first failure ends it. -/
def markMatching (holds : Value → Except NavError Bool) :
    List Value → Except NavError (List (Bool × Value))
  | [] => .ok []
  | v :: vs => do
    let b ← holds v
    let rest ← markMatching holds vs
    pure ((b, v) :: rest)

/-- The elements marked as matching. -/
def matching (marked : List (Bool × Value)) : List Value :=
  (marked.filter Prod.fst).map Prod.snd

/-- The matching elements of a sequence as one sequence; a leaf has nothing to filter. -/
def matchingIn (holds : Value → Except NavError Bool) : Value → Except NavError (List Value)
  | .sequence items => do
    let marked ← markMatching holds items
    pure [.sequence (matching marked)]
  | .mapping m => .error ((filterer []).wantsSequence (Value.mapping m).kind)
  | _ => .ok []

/-- Whether a traversal calls its terminal with something defined. It always runs to the end,
so a failure after the first match still shows. -/
def findsDefined (traverse : (Value → Action Bool Unit) → Action Bool Unit) :
    Except NavError Bool :=
  match (traverse fun v => modify (· || v.isDefined)).exec false with
  | (.ok _, found) => .ok found
  | (.error e, _) => .error e

/-! ### Traversals -/

/-- Hands every focus to `next`, in order; a failure stops there. -/
def visit (focuses : List Value) (next : Value → Action σ Unit) : Action σ Unit :=
  focuses.forM next

/-- Hands on every focus reached, or fails without calling `next`. -/
def visitReached (reached : Except NavError (List Value)) (next : Value → Action σ Unit) :
    Action σ Unit :=
  match reached with
  | .ok focuses => visit focuses next
  | .error e => throw e

mutual

/-- Hands every focus that the navigator reaches in `v` to `next`. -/
def select : Navigator → {σ : Type} → Value → (Value → Action σ Unit) → Action σ Unit
  | .all, _, v, next => visit (elements v) next
  | .mapVals, _, v, next => visitReached (valuesIn v) next
  | .mapKeys, _, v, next => visitReached (keysIn v) next
  | .first, _, v, next => visitReached (firstIn v) next
  | .last, _, v, next => visitReached (lastIn v) next
  | .beginning, _, _, _ | .ending, _, _, _ | .beforeElem, _, _, _ | .afterElem, _, _, _
  | .beforeIndex _, _, _, _ => pure ()
  | .key name, _, v, next => next (valueUnder name v)
  | .nth index, _, v, next => next (itemUnder index v)
  | .pred holds, _, v, next => if holds v then next v else pure ()
  | .view project, _, v, next => next (project v)
  | .parser parse _, _, v, next => visitReached ((parse v).map fun w => [w]) next
  | .submap names, _, v, next => visitReached ((partOf names v).map fun w => [w]) next
  | .filterer path, _, v, next =>
      visitReached (matchingIn (fun item => findsDefined (selectAlong path item)) v) next
  | .custom user, _, v, next => (user.select v).run next

/-- Follows the navigators from left to right and calls `terminal` on every focus of the last. -/
def selectAlong : List Navigator → {σ : Type} → Value → (Value → Action σ Unit) → Action σ Unit
  | [], _, v, terminal => terminal v
  | n :: path, _, v, terminal => select n v fun w => selectAlong path w terminal

end

/-- Whether the path reaches something defined in `v`. -/
def matchesAlong (path : List Navigator) (v : Value) : Except NavError Bool :=
  findsDefined (selectAlong path v)

theorem selectAlong_append (p q : List Navigator) (v : Value) (t : Value → Action σ Unit) :
    selectAlong (p ++ q) v t = selectAlong p v fun w => selectAlong q w t := by
  induction p generalizing v with
  | nil => simp [selectAlong]
  | cons n p ih => simp [selectAlong, ih]

end Navigator

end DocPath
