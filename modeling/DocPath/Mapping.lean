import DocPath.Action

/-!
# Mappings

Updates of the values, the keys and the entries of a mapping, entry by entry in order. An entry
whose update answers `absent` is dropped. When two entries come to have one key, the key stands
where it first occurred and holds the value that came last.

* `Mapping.mapValues`, `Mapping.mapKeys`, `Mapping.mapEntries` — the three updates;
* `Mapping.keyOf`, `Mapping.entryOf` — how an updated value is read back as a key or an entry.
-/

namespace DocPath

namespace Mapping

variable {σ : Type}

/-- A value as a mapping key: a string as it is, an integer in decimal. -/
def keyOf : Value → Except NavError String
  | .string s => .ok s
  | .integer n => .ok (toString n.toInt)
  | v => .error (.invalidKey v.kind)

/-- A `[key, value]` pair as an entry. -/
def entryOf : Value → Except NavError (String × Value)
  | .sequence [k, v] => do
    let k ← keyOf k
    pure (k, v)
  | v => .error (.invalidEntry v.kind)

/-- Updates every value; the keys stay as they are. -/
def mapValues (f : Value → Action σ Focus) : Entries Value → Action σ (Entries Value)
  | [] => pure []
  | (k, v) :: m => do
    let r ← f v
    let rest ← mapValues f m
    match r with
    | .value w => pure ((k, w) :: rest)
    | .absent => pure rest

/-- The entries that `f` makes of each entry in turn, before equal keys are joined. -/
def collect (f : String × Value → Action σ (Option (String × Value))) :
    Entries Value → Action σ (List (String × Value))
  | [] => pure []
  | e :: m => do
    let r ← f e
    let rest ← collect f m
    match r with
    | some e' => pure (e' :: rest)
    | none => pure rest

/-- The entry with its key updated. -/
def renameKey (f : Value → Action σ Focus) (e : String × Value) :
    Action σ (Option (String × Value)) := do
  match ← f (.string e.1) with
  | .value k =>
    let k ← Action.ofExcept (keyOf k)
    pure (some (k, e.2))
  | .absent => pure none

/-- The entry updated as a `[key, value]` pair. -/
def updateEntry (f : Value → Action σ Focus) (e : String × Value) :
    Action σ (Option (String × Value)) := do
  match ← f (Value.ofEntry e) with
  | .value pair =>
    let e' ← Action.ofExcept (entryOf pair)
    pure (some e')
  | .absent => pure none

/-- Updates every key; the values stay with their entries. -/
def mapKeys (f : Value → Action σ Focus) (m : Entries Value) : Action σ (Entries Value) := do
  let renamed ← collect (renameKey f) m
  pure (Entries.ofList renamed)

/-- Updates every entry as a `[key, value]` pair. -/
def mapEntries (f : Value → Action σ Focus) (m : Entries Value) : Action σ (Entries Value) := do
  let updated ← collect (updateEntry f) m
  pure (Entries.ofList updated)

end Mapping

end DocPath
