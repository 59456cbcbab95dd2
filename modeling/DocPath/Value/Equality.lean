import DocPath.Value.Basic

/-!
# Equality of values

Two mappings are equal when they have the same keys with equal values, in whatever order.
Numbers compare as numbers: a NaN differs from itself and the two zeros agree. An integer never
equals a float.

* `Value.equal` — the comparison, also reached as `==`;
* `Value.Similar` — equality up to the order of mapping entries at every depth, floats bit for bit.
-/

namespace DocPath

namespace Value

mutual

/-- Equality of values that ignores the order of mapping entries. -/
def equal : Value → Value → Bool
  | .null, .null => true
  | .bool a, .bool b => a == b
  | .integer a, .integer b => a == b
  | .float a, .float b => a == b
  | .string a, .string b => a == b
  | .sequence as, .sequence bs => equalItems as bs
  | .mapping as, .mapping bs => as.length == bs.length && entriesWithin as bs
  | .undefined, .undefined => true
  | _, _ => false

def equalItems : List Value → List Value → Bool
  | [], [] => true
  | a :: as, b :: bs => equal a b && equalItems as bs
  | _, _ => false

/-- Every entry of the first mapping has an equal one in the second. -/
def entriesWithin : List (String × Value) → Entries Value → Bool
  | [], _ => true
  | (k, a) :: as, bs =>
      (match Entries.get? bs k with
      | some b => equal a b
      | none => false) && entriesWithin as bs

end

instance : BEq Value := ⟨equal⟩

mutual

/-- Equality up to the order of mapping entries at every depth. -/
inductive Similar : Value → Value → Prop
  | refl (v : Value) : Similar v v
  | sequence {as bs : List Value} : SimilarItems as bs → Similar (.sequence as) (.sequence bs)
  | mapping {as bs cs : List (String × Value)} :
      SimilarEntries as bs → bs.Perm cs → Similar (.mapping as) (.mapping cs)

/-- Sequences of similar elements. -/
inductive SimilarItems : List Value → List Value → Prop
  | nil : SimilarItems [] []
  | cons {a b : Value} {as bs : List Value} :
      Similar a b → SimilarItems as bs → SimilarItems (a :: as) (b :: bs)

/-- Entries with the same keys in the same order and similar values. -/
inductive SimilarEntries : List (String × Value) → List (String × Value) → Prop
  | nil : SimilarEntries [] []
  | cons {k : String} {a b : Value} {as bs : List (String × Value)} :
      Similar a b → SimilarEntries as bs → SimilarEntries ((k, a) :: as) ((k, b) :: bs)

end

end Value

end DocPath
