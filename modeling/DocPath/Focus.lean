import DocPath.Value.Equality

/-!
# Focuses

What an update sees at one place of a document, and what it answers: a value, or `absent`. As an
answer `absent` removes the place from its parent; at an insertion point it says that nothing is
there yet.
-/

namespace DocPath

/-- A value, or nothing at all. -/
inductive Focus where
  | value (v : Value)
  | absent
deriving Inhabited

namespace Focus

def isAbsent : Focus → Bool
  | .absent => true
  | .value _ => false

/-- Absent, null or undefined. -/
def isVoid : Focus → Bool
  | .absent => true
  | .value v => v.isVoid

/-- Absent, or a value without elements. -/
def isLeaf : Focus → Bool
  | .absent => true
  | .value v => v.isLeaf

def value? : Focus → Option Value
  | .value v => some v
  | .absent => none

def ofOption : Option Value → Focus
  | some v => .value v
  | none => .absent

/-- Applies `f` to a value; `absent` stays absent. -/
def map (f : Value → Value) : Focus → Focus
  | .value v => .value (f v)
  | .absent => .absent

/-- The value, `absent` read as `undefined`. -/
def orUndefined : Focus → Value
  | .value v => v
  | .absent => .undefined

/-- The name of the focus's kind. -/
def kind : Focus → String
  | .value v => v.kind
  | .absent => "absent"

/-- Equality that ignores the order of mapping entries. -/
def equal : Focus → Focus → Bool
  | .value a, .value b => a == b
  | .absent, .absent => true
  | _, _ => false

instance : BEq Focus := ⟨equal⟩

instance : Coe Value Focus := ⟨.value⟩

end Focus

end DocPath
