import DocPath.Mapping
import DocPath.Navigator.Select

/-!
# Transforming

Transforming through a navigator calls the rest of the path on every focus and rebuilds the
focus around the answers. It meets the focuses that selecting meets, in the same order; only the
insertion points, which select nothing, call the rest of the path exactly once.

* `Navigator.transformKey`, `Navigator.transformNth`, … — the rebuilding of single navigators;
* `Navigator.transform` — one navigator;
* `Navigator.transformAlong` — a list of navigators with an update at its end;
* `Navigator.realign` — puts edited elements back among those that did not match.
-/

namespace DocPath

namespace Navigator

variable {σ : Type}

/-- What follows a navigator in a transform. -/
abbrev Continuation (σ : Type) := Focus → Action σ Focus

/-! ### Writing where nothing is -/

/-- Transforms a value in which there is no place to go to. The update sees `undefined`, as it
does when selecting; writing something defined is an error, and otherwise nothing changes. -/
def transformUnreachable (error : NavError) (s : Focus) (next : Continuation σ) :
    Action σ Focus := do
  match ← next (.value .undefined) with
  | .value w => if w.isDefined then throw error else pure s
  | .absent => pure s

/-- The entries after the update of one key answered: something defined is written, anything
else removes the entry. -/
def writeEntry (m : Entries Value) (name : String) : Focus → Entries Value
  | .value w => if w.isDefined then Entries.insert m name w else Entries.erase m name
  | .absent => Entries.erase m name

/-- Transforms the value under a key. A void value becomes a mapping once something is written. -/
def transformKey (name : String) (s : Focus) (next : Continuation σ) : Action σ Focus :=
  match s with
  | .value (.mapping m) => do
    let r ← next (.value (valueUnder name (.mapping m)))
    pure (.value (.mapping (writeEntry m name r)))
  | s =>
    if s.isVoid then do
      match ← next (.value .undefined) with
      | .value w => if w.isDefined then pure (.value (.mapping [(name, w)])) else pure s
      | .absent => pure s
    else transformUnreachable ((key name).wantsMapping s.kind) s next

/-- Transforms the element at an index. Outside the sequence nothing can be written. -/
def transformNth (index : Int64) (s : Focus) (next : Continuation σ) : Action σ Focus :=
  match s with
  | .value (.sequence items) =>
    match Sequence.resolveIndex index items.length with
    | some i => do
      let items ← Sequence.updateAt (fun v => next (.value v)) items i
      pure (.value (.sequence items))
    | none => transformUnreachable (.indexOutOfRange index items.length) s next
  | s =>
    if s.isVoid then transformUnreachable (.indexOutOfRange index 0) s next
    else transformUnreachable ((nth index).wantsSequence s.kind) s next

/-! ### Elements, values and keys -/

/-- Transforms every element, or every `[key, value]` pair; a leaf stays as it is. -/
def transformElements (s : Focus) (next : Continuation σ) : Action σ Focus :=
  match s with
  | .value (.sequence items) => do
    let items ← Sequence.mapItems (fun v => next (.value v)) items
    pure (.value (.sequence items))
  | .value (.mapping m) => do
    let m ← Mapping.mapEntries (fun v => next (.value v)) m
    pure (.value (.mapping m))
  | s => pure s

/-- Transforms every value of a mapping; a leaf stays as it is. -/
def transformValues (s : Focus) (next : Continuation σ) : Action σ Focus :=
  match s with
  | .value (.mapping m) => do
    let m ← Mapping.mapValues (fun v => next (.value v)) m
    pure (.value (.mapping m))
  | s => if s.isLeaf then pure s else throw (mapVals.wantsMapping s.kind)

/-- Transforms every key of a mapping; a leaf stays as it is. -/
def transformKeys (s : Focus) (next : Continuation σ) : Action σ Focus :=
  match s with
  | .value (.mapping m) => do
    let m ← Mapping.mapKeys (fun v => next (.value v)) m
    pure (.value (.mapping m))
  | s => if s.isLeaf then pure s else throw (mapKeys.wantsMapping s.kind)

/-- Transforms the element at one end, the position being counted from the length; an empty
sequence and a leaf stay as they are. -/
def transformEnd (n : Navigator) (position : Nat → Nat) (s : Focus) (next : Continuation σ) :
    Action σ Focus :=
  match s with
  | .value (.sequence items) => do
    let items ← Sequence.updateAt (fun v => next (.value v)) items (position items.length)
    pure (.value (.sequence items))
  | s => if s.isLeaf then pure s else throw (n.wantsSequence s.kind)

/-! ### Insertion points -/

/-- The elements of a sequence; a void value is read as the empty sequence. -/
def itemsOf (n : Navigator) : Focus → Except NavError (List Value)
  | .value (.sequence items) => .ok items
  | s => if s.isVoid then .ok [] else .error (n.wantsSequence s.kind)

/-- Inserts at an end what the update makes of an empty sequence: the elements of a sequence, or
any other value as one element. `place` says at which end. -/
def transformSplice (n : Navigator) (place : (items added : List Value) → List Value)
    (s : Focus) (next : Continuation σ) : Action σ Focus := do
  let items ← Action.ofExcept (itemsOf n s)
  match ← next (.value (.sequence [])) with
  | .value (.sequence added) => pure (.value (.sequence (place items added)))
  | .value w => pure (.value (.sequence (place items [w])))
  | .absent => pure (.value (.sequence items))

/-- Inserts the update's answer at an end as one element. `place` says at which end. -/
def transformEdge (n : Navigator) (place : (items : List Value) → Value → List Value)
    (s : Focus) (next : Continuation σ) : Action σ Focus := do
  let items ← Action.ofExcept (itemsOf n s)
  match ← next .absent with
  | .value w => pure (.value (.sequence (place items w)))
  | .absent => pure (.value (.sequence items))

/-- Inserts the update's answer before an index. -/
def transformBeforeIndex (index : Int64) (s : Focus) (next : Continuation σ) : Action σ Focus := do
  let items ← Action.ofExcept (itemsOf (beforeIndex index) s)
  match ← next .absent with
  | .value w =>
    match Sequence.resolveInsertIndex index items.length with
    | some i => pure (.value (.sequence (Sequence.insertAt items i w)))
    | none => throw (.indexOutOfRange index items.length)
  | .absent => pure (.value (.sequence items))

/-! ### Projections and parts -/

/-- Transforms the parsed form and brings the answer back. -/
def transformParsed (parse unparse : Value → Except NavError Value) (s : Focus)
    (next : Continuation σ) : Action σ Focus := do
  let parsed ← Action.ofExcept (parse s.orUndefined)
  match ← next (.value parsed) with
  | .value w => do
    let w ← Action.ofExcept (unparse w)
    pure (.value w)
  | .absent => pure .absent

/-- The mapping `m` after its part under the named keys became `part`: named keys missing from
`part` are gone, and the rest of `part` is written over `m`. -/
def replacePart (names : List String) (m part : Entries Value) : Entries Value :=
  Entries.merge (Entries.without (names.filter fun k => !Entries.contains part k) m) part

/-- Transforms the part of a mapping under the named keys. A void value becomes a mapping once
the part is not empty. -/
def transformSubmap (names : List String) (s : Focus) (next : Continuation σ) : Action σ Focus := do
  let m ← match s with
    | .value (.mapping m) => pure m
    | s => if s.isVoid then pure [] else throw ((submap names).wantsMapping s.kind)
  let part ← match ← next (.value (.mapping (Entries.pick names m))) with
    | .value (.mapping part) => pure part
    | .absent => pure []
    | .value w => throw ((submap names).mismatch "a mapping result" w.kind)
  if s.isVoid && part.isEmpty then pure s
  else pure (.value (.mapping (replacePart names m part)))

/-- Puts the edited elements back: the j-th matching element becomes the j-th edited one and goes
where there is none or it is undefined; an element that does not match stays. -/
def realign : List (Bool × Value) → List Value → List Value
  | [], _ => []
  | (false, v) :: marked, edited => v :: realign marked edited
  | (true, _) :: marked, [] => realign marked []
  | (true, _) :: marked, w :: edited =>
      if w.isDefined then w :: realign marked edited else realign marked edited

/-- Transforms the matching elements of a sequence as one sequence. -/
def transformMatching (holds : Value → Except NavError Bool) (s : Focus) (next : Continuation σ) :
    Action σ Focus :=
  match s with
  | .value (.sequence items) => do
    let marked ← Action.ofExcept (markMatching holds items)
    let edited ← match ← next (.value (.sequence (matching marked))) with
      | .value (.sequence edited) => pure edited
      | .absent => pure []
      | .value w => throw ((filterer []).mismatch "a sequence result" w.kind)
    pure (.value (.sequence (realign marked edited)))
  | s => if s.isLeaf then pure s else throw ((filterer []).wantsSequence s.kind)

/-! ### Navigators and paths -/

/-- Calls `next` on every focus that the navigator reaches and rebuilds `s` around the answers. -/
def transform (n : Navigator) (s : Focus) (next : Continuation σ) : Action σ Focus :=
  match n with
  | .all => transformElements s next
  | .mapVals => transformValues s next
  | .mapKeys => transformKeys s next
  | .first => transformEnd .first (fun _ => 0) s next
  | .last => transformEnd .last (fun length => length - 1) s next
  | .beginning => transformSplice .beginning (fun items added => added ++ items) s next
  | .ending => transformSplice .ending (fun items added => items ++ added) s next
  | .beforeElem => transformEdge .beforeElem (fun items w => Sequence.prepend w items) s next
  | .afterElem => transformEdge .afterElem Sequence.append s next
  | .key name => transformKey name s next
  | .nth index => transformNth index s next
  | .beforeIndex index => transformBeforeIndex index s next
  | .pred holds => if holds s.orUndefined then next s else pure s
  | .view project => next (.value (project s.orUndefined))
  | .parser parse unparse => transformParsed parse unparse s next
  | .submap names => transformSubmap names s next
  | .filterer path => transformMatching (matchesAlong path) s next
  | .custom user => (user.transform s).run next

/-- Follows the navigators from left to right and calls `update` on every focus of the last. -/
def transformAlong : List Navigator → Focus → Continuation σ → Action σ Focus
  | [], s, update => update s
  | n :: path, s, update => n.transform s fun f => transformAlong path f update

theorem transformAlong_append (p q : List Navigator) (s : Focus) (update : Continuation σ) :
    transformAlong (p ++ q) s update = transformAlong p s fun f => transformAlong q f update := by
  induction p generalizing s with
  | nil => simp [transformAlong]
  | cons n p ih => simp [transformAlong, ih]

end Navigator

end DocPath
