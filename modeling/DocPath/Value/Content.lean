import DocPath.Value.Basic

/-!
# Untagged content

A text says of each of its parts what it is in the terms of its own format: nothing, a truth value, a
number, a string, a list or a record. Nothing in it names the kind of value that is meant. The kinds are
tried in a fixed order, and the first one that takes the content wins. `undefined` is not among them.

* `Content` — what a text holds;
* `Content.integer?`, `Content.float?`, … — the single kinds;
* `Content.value?` — the value that a content stands for.
-/

namespace DocPath

/-- What a text holds, in the terms of its format. -/
inductive Content where
  | nothing
  | bool (b : Bool)
  /-- A whole number without a sign. -/
  | natural (n : UInt64)
  /-- A whole number with a minus sign. -/
  | negative (n : Int64)
  | float (x : Float)
  | string (s : String)
  | list (items : List Content)
  /-- Names with their contents as the text has them, a repeated name each time. -/
  | record (members : List (String × Content))
deriving Inhabited

namespace Content

/-! ### Single kinds -/

def null? : Content → Option Value
  | .nothing => some .null
  | _ => none

def bool? : Content → Option Value
  | .bool b => some (.bool b)
  | _ => none

/-- A whole number that fits a word with sign. -/
def integer? : Content → Option Value
  | .natural n => if n.toNat < Nat.pow 2 63 then some (.integer n.toInt64) else none
  | .negative n => some (.integer n)
  | _ => none

/-- Any number, a whole one rounded. -/
def float? : Content → Option Value
  | .natural n => some (.float n.toFloat)
  | .negative n => some (.float n.toFloat)
  | .float x => some (.float x)
  | _ => none

def string? : Content → Option Value
  | .string s => some (.string s)
  | _ => none

/-- The kinds of values that have no parts, in the order in which they are tried. -/
def scalar? (c : Content) : Option Value :=
  c.null?.or (c.bool?.or (c.integer?.or (c.float?.or c.string?)))

/-! ### All kinds -/

mutual

/-- The value that a content stands for: scalars are tried before sequences, and mappings last. -/
def value? (c : Content) : Option Value :=
  (scalar? c).or
    ((match c with
      | .list items => (values? items).map Value.sequence
      | _ => none).or
    (match c with
      | .record members => (entries? members).map fun es => Value.mapping (Entries.ofList es)
      | _ => none))

/-- The values of a list, if each of its parts stands for one. -/
def values? : List Content → Option (List Value)
  | [] => some []
  | c :: cs => do
    let v ← value? c
    let vs ← values? cs
    some (v :: vs)

/-- The named values of a record, if each of its parts stands for one. -/
def entries? : List (String × Content) → Option (List (String × Value))
  | [] => some []
  | (k, c) :: cs => do
    let v ← value? c
    let es ← entries? cs
    some ((k, v) :: es)

end

end Content

end DocPath
