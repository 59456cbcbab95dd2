import DocPath.Entries

/-!
# Document values

A document is a scalar, an ordered sequence or a keyed mapping, nested as deep as one likes.

* `Value` — the values; `undefined` is what a missing key or index yields, and no document text
  produces it;
* `Value.kind` — the name of a value's kind, as errors give it;
* `Value.isVoid`, `Value.isLeaf` — values read as "nothing here yet", and values without elements;
* `Value.UndefinedFree`, `Value.WellFormed` — no `undefined` at any depth, and no key twice in
  one mapping at any depth.
-/

namespace DocPath

/-- A document value. Mappings keep the order in which their keys were first written. -/
inductive Value where
  /-- An explicit null. -/
  | null
  | bool (b : Bool)
  /-- A signed 64-bit integer. -/
  | integer (n : Int64)
  /-- A double precision number. -/
  | float (x : Float)
  | string (s : String)
  | sequence (items : List Value)
  | mapping (entries : List (String × Value))
  /-- What stands at a missing key or index. -/
  | undefined
deriving Inhabited

namespace Value

/-! ### Kinds -/

/-- The name of the value's kind. -/
def kind : Value → String
  | .null => "null"
  | .bool _ => "boolean"
  | .integer _ => "integer"
  | .float _ => "float"
  | .string _ => "string"
  | .sequence _ => "sequence"
  | .mapping _ => "mapping"
  | .undefined => "undefined"

def isMapping : Value → Bool
  | .mapping _ => true
  | _ => false

def isSequence : Value → Bool
  | .sequence _ => true
  | _ => false

/-- Every value but `undefined` is defined. -/
def isDefined : Value → Bool
  | .undefined => false
  | _ => true

/-- `null` and `undefined`: nothing is here yet, so a container may be written. -/
def isVoid : Value → Bool
  | .null => true
  | .undefined => true
  | _ => false

/-- Anything that is neither a sequence nor a mapping; a leaf holds no elements. -/
def isLeaf : Value → Bool
  | .sequence _ => false
  | .mapping _ => false
  | _ => true

/-! ### Projections -/

def sequence? : Value → Option (List Value)
  | .sequence items => some items
  | _ => none

def mapping? : Value → Option (Entries Value)
  | .mapping m => some m
  | _ => none

def string? : Value → Option String
  | .string s => some s
  | _ => none

def integer? : Value → Option Int64
  | .integer n => some n
  | _ => none

/-- The `[key, value]` pair that stands for one entry of a mapping. -/
def ofEntry (e : String × Value) : Value := .sequence [.string e.1, e.2]

/-- The entries of a mapping as `[key, value]` pairs. -/
def pairs (m : Entries Value) : List Value := m.map ofEntry

/-! ### Predicates at every depth -/

mutual

/-- No `undefined` at any depth. -/
def UndefinedFree : Value → Prop
  | .sequence items => AllUndefinedFree items
  | .mapping m => EntriesUndefinedFree m
  | .undefined => False
  | .null | .bool _ | .integer _ | .float _ | .string _ => True

def AllUndefinedFree : List Value → Prop
  | [] => True
  | v :: vs => UndefinedFree v ∧ AllUndefinedFree vs

def EntriesUndefinedFree : List (String × Value) → Prop
  | [] => True
  | (_, v) :: m => UndefinedFree v ∧ EntriesUndefinedFree m

end

mutual

/-- No mapping at any depth has a key twice. -/
def WellFormed : Value → Prop
  | .sequence items => AllWellFormed items
  | .mapping m => Entries.Distinct m ∧ EntriesWellFormed m
  | .null | .bool _ | .integer _ | .float _ | .string _ | .undefined => True

def AllWellFormed : List Value → Prop
  | [] => True
  | v :: vs => WellFormed v ∧ AllWellFormed vs

def EntriesWellFormed : List (String × Value) → Prop
  | [] => True
  | (_, v) :: m => WellFormed v ∧ EntriesWellFormed m

end

theorem allUndefinedFree_iff (vs : List Value) :
    AllUndefinedFree vs ↔ ∀ v ∈ vs, v.UndefinedFree := by
  induction vs with
  | nil => simp [AllUndefinedFree]
  | cons v vs ih => simp [AllUndefinedFree, ih]

theorem entriesUndefinedFree_iff (m : Entries Value) :
    EntriesUndefinedFree m ↔ ∀ e ∈ m, e.2.UndefinedFree := by
  induction m with
  | nil => simp [EntriesUndefinedFree]
  | cons e m ih => obtain ⟨k, v⟩ := e; simp [EntriesUndefinedFree, ih]

theorem allWellFormed_iff (vs : List Value) : AllWellFormed vs ↔ ∀ v ∈ vs, v.WellFormed := by
  induction vs with
  | nil => simp [AllWellFormed]
  | cons v vs ih => simp [AllWellFormed, ih]

theorem entriesWellFormed_iff (m : Entries Value) :
    EntriesWellFormed m ↔ ∀ e ∈ m, e.2.WellFormed := by
  induction m with
  | nil => simp [EntriesWellFormed]
  | cons e m ih => obtain ⟨k, v⟩ := e; simp [EntriesWellFormed, ih]

theorem isDefined_of_undefinedFree {v : Value} (h : v.UndefinedFree) : v.isDefined = true := by
  cases v <;> first | rfl | exact absurd h (by simp [UndefinedFree])

end Value

end DocPath
