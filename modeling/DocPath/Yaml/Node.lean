import DocPath.Yaml.Token.Basic

/-!
# YAML nodes

The tree that the tokens of a document make. A flow collection is closed by its bracket, a block by
the token that ends it, and the items of a sequence under a key may stand without a block of their
own.

* `Yaml.Node` — scalars, sequences, mappings and references to anchors;
* `Yaml.Node.ofTokens?` — the one document that a list of tokens makes.
-/

namespace DocPath

namespace Yaml

/-- What may stand before a node. -/
structure Marks (α : Type) where
  anchor : Option α := none
  tag : Option Tag := none
deriving Inhabited

/-- A node of a document whose anchors are known by an `α`: a name, or a number given to it. -/
inductive Node (α : Type) where
  | scalar (marks : Marks α) (plain : Bool) (text : String)
  | sequence (marks : Marks α) (items : List (Node α))
  | mapping (marks : Marks α) (entries : List (Node α × Node α))
  | alias (anchor : α)
deriving Inhabited

namespace Node

/-- The node where nothing stands. -/
def empty (marks : Marks String := {}) : Node String := .scalar marks true ""

/-- Reads an anchor and a tag, in either order. -/
def readMarks (handles : Tag.Handles) : List Token → Option (Marks String × List Token)
  | .anchor a :: .tag h s :: ts => (Tag.expand? handles h s).map fun t => (⟨some a, some t⟩, ts)
  | .anchor a :: ts => some (⟨some a, none⟩, ts)
  | .tag h s :: .anchor a :: ts => (Tag.expand? handles h s).map fun t => (⟨some a, some t⟩, ts)
  | .tag h s :: ts => (Tag.expand? handles h s).map fun t => (⟨none, some t⟩, ts)
  | ts => some ({}, ts)

/-- Where a node stands decides which nodes may stand there. -/
inductive Place where
  /-- Between brackets or braces. -/
  | flow
  /-- In a block. -/
  | block
  /-- In a block of keys, where dashes may follow without a block of their own. -/
  | underKey

/-- Whether the token says that nothing stands before it, in a block of items. -/
def endsItem : List Token → Bool
  | .blockEntry :: _ | .blockEnd :: _ => true
  | _ => false

/-- Whether the token says that nothing stands before it, among items under a key. -/
def endsBareItem : List Token → Bool
  | .blockEntry :: _ | .key :: _ | .value :: _ | .blockEnd :: _ => true
  | _ => false

/-- Whether the token says that nothing stands before it, in a block of keys. -/
def endsKey : List Token → Bool
  | .key :: _ | .value :: _ | .blockEnd :: _ => true
  | _ => false

/-- Whether the token says that nothing stands before it, between braces. -/
def endsFlowEntry : List Token → Bool
  | .value :: _ | .flowEntry :: _ | .flowMappingEnd :: _ => true
  | _ => false

/-- Whether the token says that nothing stands before it, as a value between braces. -/
def endsFlowValue : List Token → Bool
  | .flowEntry :: _ | .flowMappingEnd :: _ => true
  | _ => false

/-- Whether the token says that nothing stands before it, as a value of a pair between brackets. -/
def endsPairValue : List Token → Bool
  | .flowEntry :: _ | .flowSequenceEnd :: _ => true
  | _ => false

/-- Whether the token says that nothing stands before it, as a key of a pair between brackets. -/
def endsPairKey : List Token → Bool
  | .value :: _ | .flowEntry :: _ | .flowSequenceEnd :: _ => true
  | _ => false

variable (handles : Tag.Handles)

mutual

/-- Reads a node. -/
def read : (fuel : Nat) → Place → List Token → Option (Node String × List Token)
  | 0, _, _ => none
  | fuel + 1, place, ts =>
    match ts with
    | .alias name :: ts => some (.alias name, ts)
    | ts =>
      match readMarks handles ts with
      | none => none
      | some (marks, ts) =>
        match place, ts with
        | .underKey, .blockEntry :: _ =>
          (readBareItems fuel ts).map fun r => (.sequence marks r.1, r.2)
        | _, .scalar plain text :: ts => some (.scalar marks plain text, ts)
        | _, .flowSequenceStart :: ts =>
          (readFlowItems fuel true ts).map fun r => (.sequence marks r.1, r.2)
        | _, .flowMappingStart :: ts =>
          (readFlowEntries fuel true ts).map fun r => (.mapping marks r.1, r.2)
        | .block, .blockSequenceStart :: ts | .underKey, .blockSequenceStart :: ts =>
          (readItems fuel ts).map fun r => (.sequence marks r.1, r.2)
        | .block, .blockMappingStart :: ts | .underKey, .blockMappingStart :: ts =>
          (readEntries fuel ts).map fun r => (.mapping marks r.1, r.2)
        | _, ts =>
          if marks.anchor.isSome || marks.tag.isSome then some (empty marks, ts) else none

/-- Reads a node, or the empty one if `absent` says that nothing stands here. -/
def readOrEmpty : (fuel : Nat) → (absent : Bool) → Place → List Token →
    Option (Node String × List Token)
  | 0, _, _, _ => none
  | fuel + 1, absent, place, ts => if absent then some (empty, ts) else read fuel place ts

/-- Reads the items of a block with its end. -/
def readItems : (fuel : Nat) → List Token → Option (List (Node String) × List Token)
  | 0, _ => none
  | fuel + 1, ts =>
    match ts with
    | .blockEntry :: ts =>
      match readOrEmpty fuel (endsItem ts) .block ts with
      | none => none
      | some (n, ts) => (readItems fuel ts).map fun r => (n :: r.1, r.2)
    | .blockEnd :: ts => some ([], ts)
    | _ => none

/-- Reads items that stand under a key without a block of their own. -/
def readBareItems : (fuel : Nat) → List Token → Option (List (Node String) × List Token)
  | 0, _ => none
  | fuel + 1, ts =>
    match ts with
    | .blockEntry :: ts =>
      match readOrEmpty fuel (endsBareItem ts) .block ts with
      | none => none
      | some (n, ts) => (readBareItems fuel ts).map fun r => (n :: r.1, r.2)
    | ts => some ([], ts)

/-- Reads the entries of a block with its end. -/
def readEntries : (fuel : Nat) → List Token →
    Option (List (Node String × Node String) × List Token)
  | 0, _ => none
  | fuel + 1, ts =>
    match ts with
    | .key :: ts =>
      match readOrEmpty fuel (endsKey ts) .underKey ts with
      | none => none
      | some (k, ts) =>
        match readBlockValue fuel ts with
        | none => none
        | some (v, ts) => (readEntries fuel ts).map fun r => ((k, v) :: r.1, r.2)
    | .blockEnd :: ts => some ([], ts)
    | _ => none

/-- Reads the value of a key in a block. -/
def readBlockValue : (fuel : Nat) → List Token → Option (Node String × List Token)
  | 0, _ => none
  | fuel + 1, ts =>
    match ts with
    | .value :: ts => readOrEmpty fuel (endsKey ts) .underKey ts
    | ts => some (empty, ts)

/-- Reads the items between brackets with the closing bracket; a comma may stand after the last. -/
def readFlowItems : (fuel : Nat) → (first : Bool) → List Token →
    Option (List (Node String) × List Token)
  | 0, _, _ => none
  | fuel + 1, first, ts =>
    match first, ts with
    | _, .flowSequenceEnd :: ts => some ([], ts)
    | false, .flowEntry :: .flowSequenceEnd :: ts => some ([], ts)
    | false, .flowEntry :: ts => readFlowItem fuel ts
    | false, _ => none
    | true, ts => readFlowItem fuel ts

/-- Reads one item between brackets and those after it. A key makes a mapping of one entry. -/
def readFlowItem : (fuel : Nat) → List Token → Option (List (Node String) × List Token)
  | 0, _ => none
  | fuel + 1, ts =>
    let item : Option (Node String × List Token) := match ts with
      | .key :: ts =>
        match readOrEmpty fuel (endsPairKey ts) .flow ts with
        | none => none
        | some (k, ts) => (readPairValue fuel ts).map fun r => (.mapping {} [(k, r.1)], r.2)
      | ts => read fuel .flow ts
    match item with
    | none => none
    | some (n, ts) => (readFlowItems fuel false ts).map fun r => (n :: r.1, r.2)

/-- Reads the value of a pair between brackets. -/
def readPairValue : (fuel : Nat) → List Token → Option (Node String × List Token)
  | 0, _ => none
  | fuel + 1, ts =>
    match ts with
    | .value :: ts => readOrEmpty fuel (endsPairValue ts) .flow ts
    | ts => some (empty, ts)

/-- Reads the entries between braces with the closing brace; a comma may stand after the last. -/
def readFlowEntries : (fuel : Nat) → (first : Bool) → List Token →
    Option (List (Node String × Node String) × List Token)
  | 0, _, _ => none
  | fuel + 1, first, ts =>
    match first, ts with
    | _, .flowMappingEnd :: ts => some ([], ts)
    | false, .flowEntry :: .flowMappingEnd :: ts => some ([], ts)
    | false, .flowEntry :: ts => readFlowEntry fuel ts
    | false, _ => none
    | true, ts => readFlowEntry fuel ts

/-- Reads one entry between braces and those after it. A node without a key mark has no value. -/
def readFlowEntry : (fuel : Nat) → List Token →
    Option (List (Node String × Node String) × List Token)
  | 0, _ => none
  | fuel + 1, ts =>
    let entry : Option ((Node String × Node String) × List Token) := match ts with
      | .key :: ts =>
        match readOrEmpty fuel (endsFlowEntry ts) .flow ts with
        | none => none
        | some (k, ts) => (readFlowValue fuel ts).map fun r => ((k, r.1), r.2)
      | ts => (read fuel .flow ts).map fun r => ((r.1, empty), r.2)
    match entry with
    | none => none
    | some (e, ts) => (readFlowEntries fuel false ts).map fun r => (e :: r.1, r.2)

/-- Reads the value of a key between braces. -/
def readFlowValue : (fuel : Nat) → List Token → Option (Node String × List Token)
  | 0, _ => none
  | fuel + 1, ts =>
    match ts with
    | .value :: ts => readOrEmpty fuel (endsFlowValue ts) .flow ts
    | ts => some (empty, ts)

end

/-! ### Documents -/

/-- Reads the directives before a document: a version once at most, and short forms of tags, each
once at most. -/
def readDirectives (versioned : Bool) (known : Tag.Handles) : List Token →
    Option (Tag.Handles × List Token)
  | .version major minor :: ts =>
    if versioned || major != 1 || (minor != 1 && minor != 2) then none
    else readDirectives true known ts
  | .tagPrefix handle text :: ts =>
    if (known.lookup handle).isSome then none
    else readDirectives versioned ((handle, text) :: known) ts
  | ts => some (known, ts)

/-- Whether a document begins here with a mark of its own. -/
def startsDocument : List Token → Bool
  | .version _ _ :: _ | .tagPrefix _ _ :: _ | .documentStart :: _ => true
  | _ => false

/-- Whether nothing stands after the mark of a document. -/
def endsDocument : List Token → Bool
  | [] => true
  | .documentEnd :: _ => true
  | ts => startsDocument ts

/-- Reads a document. -/
def readDocument (ts : List Token) : Option (Node String × List Token) :=
  let fuel := 4 * ts.length + 4
  if startsDocument ts then
    match readDirectives false [] ts with
    | some (handles, .documentStart :: ts) =>
      readOrEmpty (handles ++ Tag.standardHandles) fuel (endsDocument ts) .block ts
    | _ => none
  else read Tag.standardHandles fuel .block ts

/-- The tokens after marks that end a document. -/
def skipEnds : List Token → List Token
  | .documentEnd :: ts => skipEnds ts
  | ts => ts

/-- The document that the tokens make: none if they make no document or more than one. No tokens
at all make an empty document. -/
def ofTokens? (ts : List Token) : Option (Node String) :=
  if ts.isEmpty then some empty
  else
    match readDocument ts with
    | some (n, ts) => if (skipEnds ts).isEmpty then some n else none
    | none => none

end Node

end Yaml

end DocPath
