import DocPath.Action

/-!
# Sequences

Positions in a sequence, and edits that rebuild it. A negative index counts from the end, so -1
is the last element. Index arithmetic is that of 64-bit words.

* `Sequence.resolveIndex`, `Sequence.resolveInsertIndex` — the position that an index names;
* `Sequence.mapItems`, `Sequence.updateAt` — rebuild a sequence by an update, which removes an
  element by answering `absent`;
* `Sequence.insertAt` and its two ends `Sequence.prepend` and `Sequence.append`.
-/

namespace DocPath

namespace Sequence

variable {σ : Type}

/-- The index counted from the front. -/
def normalizeIndex (index : Int64) (length : Nat) : Int64 :=
  if index < 0 then Int64.ofNat length + index else index

/-- The position of the element that `index` names in a sequence of the given length. -/
def resolveIndex (index : Int64) (length : Nat) : Option Nat :=
  let i := normalizeIndex index length
  if 0 ≤ i ∧ i < Int64.ofNat length then some i.toNatClampNeg else none

/-- The position before which `index` inserts; the length itself names the end. -/
def resolveInsertIndex (index : Int64) (length : Nat) : Option Nat :=
  let i := normalizeIndex index length
  if 0 ≤ i ∧ i ≤ Int64.ofNat length then some i.toNatClampNeg else none

/-- The element that `index` names, if there is one. -/
def itemAt? (items : List Value) (index : Int64) : Option Value :=
  (resolveIndex index items.length).bind fun i => items[i]?

/-- Updates every element from left to right and drops those answered by `absent`. -/
def mapItems (f : Value → Action σ Focus) : List Value → Action σ (List Value)
  | [] => pure []
  | v :: vs => do
    let r ← f v
    let rest ← mapItems f vs
    match r with
    | .value w => pure (w :: rest)
    | .absent => pure rest

/-- Updates the element at position `i` and removes it on `absent`; the others stay. Past the
end there is nothing to update. -/
def updateAt (f : Value → Action σ Focus) : List Value → Nat → Action σ (List Value)
  | [], _ => pure []
  | v :: vs, 0 => do
    match ← f v with
    | .value w => pure (w :: vs)
    | .absent => pure vs
  | v :: vs, i + 1 => do
    let rest ← updateAt f vs i
    pure (v :: rest)

/-- Inserts `v` before position `i`. -/
def insertAt (items : List Value) (i : Nat) (v : Value) : List Value := items.insertIdx i v

/-- `v` as the new first element. -/
def prepend (v : Value) (items : List Value) : List Value := v :: items

/-- `v` as the new last element. -/
def append (items : List Value) (v : Value) : List Value := items ++ [v]

end Sequence

end DocPath
