import DocPath.Entries
import DocPath.Yaml.Node

/-!
# YAML anchors

An anchor is known by a number: how many names were anchored before it in the document. A name that
is anchored anew is no new name, so its anchor and the anchor of the next new name share a number.
An alias has the number that its name has where the alias stands, and it stands for the last node
of the whole document that has this number, which may well follow the alias or be around it.

* `Yaml.Node.number?` — a document with numbers for its names;
* `Yaml.Node.anchored` — the nodes that have a number, in the order in which they begin.
-/

namespace DocPath

namespace Yaml

namespace Node

/-! ### Numbers -/

/-- Keeps the numbers of the names anchored so far; fails at an alias of any other name. -/
abbrev Numbering := StateT (Entries Nat) Option

/-- Gives an anchor its number. -/
def numberMarks (marks : Marks String) : Numbering (Marks Nat) := do
  match marks.anchor with
  | none => pure { tag := marks.tag }
  | some name =>
    let known ← get
    set (Entries.insert known name known.length)
    pure { anchor := some known.length, tag := marks.tag }

mutual

/-- Numbers the anchor of a node, then what is in it. -/
def number : Node String → Numbering (Node Nat)
  | .alias name => do
    match Entries.get? (← get) name with
    | some n => pure (.alias n)
    | none => failure
  | .scalar marks plain text => return .scalar (← numberMarks marks) plain text
  | .sequence marks items => do
    let marks ← numberMarks marks
    return .sequence marks (← numberItems items)
  | .mapping marks entries => do
    let marks ← numberMarks marks
    return .mapping marks (← numberEntries entries)

/-- Numbers the items of a sequence. -/
def numberItems : List (Node String) → Numbering (List (Node Nat))
  | [] => pure []
  | n :: ns => do
    let n ← number n
    return n :: (← numberItems ns)

/-- Numbers the entries of a mapping, each key before its value. -/
def numberEntries : List (Node String × Node String) → Numbering (List (Node Nat × Node Nat))
  | [] => pure []
  | (k, v) :: es => do
    let k ← number k
    let v ← number v
    return (k, v) :: (← numberEntries es)

end

/-- The document with numbers for its names; none if a name is used that no anchor before it has. -/
def number? (n : Node String) : Option (Node Nat) := (number n).run' []

/-! ### Nodes with a number -/

/-- The node under its number, if it has one. -/
def underNumber (marks : Marks Nat) (n : Node Nat) : List (Nat × Node Nat) :=
  marks.anchor.toList.map fun a => (a, n)

mutual

/-- The nodes that have a number, in the order in which they begin. -/
def anchored : Node Nat → List (Nat × Node Nat)
  | .alias _ => []
  | .scalar marks plain text => underNumber marks (.scalar marks plain text)
  | .sequence marks items => underNumber marks (.sequence marks items) ++ itemsAnchored items
  | .mapping marks entries => underNumber marks (.mapping marks entries) ++ entriesAnchored entries

/-- The nodes in the items of a sequence that have a number. -/
def itemsAnchored : List (Node Nat) → List (Nat × Node Nat)
  | [] => []
  | n :: ns => anchored n ++ itemsAnchored ns

/-- The nodes in the entries of a mapping that have a number. -/
def entriesAnchored : List (Node Nat × Node Nat) → List (Nat × Node Nat)
  | [] => []
  | (k, v) :: es => anchored k ++ anchored v ++ entriesAnchored es

end

end Node

end Yaml

end DocPath
