import DocPath.ReadError
import DocPath.Value.Basic
import DocPath.Yaml.Anchor
import DocPath.Yaml.Token.Lexer

/-!
# Reading YAML

A text holds one document. Scalars without quotes stand for null, truth values, numbers or text;
all others are text. Keys must be text; a repeated key keeps its first place and its last value.
An alias stands for the whole node of its anchor. At most 128 containers may nest, those of aliases
included, so an alias inside the node that it stands for is refused. Reading never yields
`undefined`.

* `Yaml.scalarValue` — the value of a scalar;
* `Yaml.nodeValue` — the value of a node;
* `Yaml.read` — a whole text.
-/

namespace DocPath

namespace Yaml

/-! ### Scalars -/

/-- The value of an integer: one beyond 64 bits with sign is a float, one beyond 64 bits is
refused. -/
def integerValue (n : Int) : Option Value :=
  if n < -Int.pow 2 63 ∨ Int.pow 2 64 ≤ n then none
  else if n < Int.pow 2 63 then some (.integer (Int64.ofInt n))
  else some (.float (UInt64.ofNat n.toNat).toFloat)

/-- The value of a scalar without quotes. -/
def plainValue (text : String) : Option Value :=
  match resolve text with
  | .null => some .null
  | .bool b => some (.bool b)
  | .integer n => integerValue n
  | .float x => some (.float x)
  | .text => some (.string text)

/-- The value of a scalar. A tag of the core kinds wants a spelling of that kind, a tag of the
user is refused, one that is local without naming a kind is passed over, and any other makes
text. -/
def scalarValue (tag : Option Tag) (plain : Bool) (text : String) : Option Value :=
  let untagged := if plain then plainValue text else some (.string text)
  match tag with
  | none => untagged
  | some t =>
    if t == Tag.core "bool" then (bool? text).map .bool
    else if t == Tag.core "int" then (integer? text.toList).bind integerValue
    else if t == Tag.core "float" then (float? text).map .float
    else if t == Tag.core "null" then (if isNull text then some .null else none)
    else if t.isOwn then none
    else if t.isLocal then untagged
    else some (.string text)

/-! ### Nodes -/

/-- Keeps the number of aliases that may still be followed. -/
abbrev Reading := StateT Nat Option

/-- Uses up one of the aliases that may be followed. -/
def spendAlias : Reading Unit := do
  match ← get with
  | 0 => failure
  | left + 1 => set left

/-- The text of a key. -/
def keyText (key : Value) : Option String :=
  match key with
  | .string s => some s
  | _ => none

/-- Whether the user has marked a container as of a kind of his own. -/
def Marks.isOwn (marks : Marks Nat) : Bool := (marks.tag.map Tag.isOwn).getD false

/-- The node itself, or the one that an alias stands for. -/
def followAlias (numbered : List (Nat × Node Nat)) : Node Nat → Reading (Node Nat)
  | .alias a => do
    spendAlias
    match numbered.lookup a with
    | some n => pure n
    | none => failure
  | n => pure n

/-- The value of a node that nests at most `room` containers, itself among them. An alias stands for
the first of the `numbered` nodes that have its number. -/
def nodeValue (numbered : List (Nat × Node Nat)) (room : Nat) (node : Node Nat) :
    Reading Value := do
  match room, ← followAlias numbered node with
  | _, .scalar marks plain text => scalarValue marks.tag plain text
  | room + 1, .sequence marks items =>
    if marks.isOwn then failure
    else return .sequence (← items.mapM (nodeValue numbered room))
  | room + 1, .mapping marks entries =>
    if marks.isOwn then failure
    else
      let pairs ← entries.mapM fun e => do
        let key ← nodeValue numbered room e.1
        let name ← keyText key
        return (name, ← nodeValue numbered room e.2)
      return .mapping (Entries.ofList pairs)
  | _, _ => failure

/-! ### Texts -/

mutual

/-- The number of places of a node: one for a scalar or an alias, two for a container. -/
def places : Node Nat → Nat
  | .alias _ => 1
  | .scalar _ _ _ => 1
  | .sequence _ items => 2 + itemPlaces items
  | .mapping _ entries => 2 + entryPlaces entries

/-- The number of places of the items of a sequence. -/
def itemPlaces : List (Node Nat) → Nat
  | [] => 0
  | n :: ns => places n + itemPlaces ns

/-- The number of places of the entries of a mapping. -/
def entryPlaces : List (Node Nat × Node Nat) → Nat
  | [] => 0
  | (k, v) :: es => places k + places v + entryPlaces es

end

/-- The deepest nesting of containers. -/
def maxDepth : Nat := 128

/-- The document that a text holds; none if it is not well formed. Aliases may not be followed
more than a hundred times for each place of the document. -/
def read? (text : String) : Option Value := do
  let node ← Node.ofTokens? (← tokens text)
  let document ← node.number?
  (nodeValue document.anchored.reverse maxDepth document).run' (100 * places document)

/-- The document that a text holds. -/
def read (text : String) : Except ReadError Value :=
  match read? text with
  | some v => .ok v
  | none => .error .document

end Yaml

end DocPath
