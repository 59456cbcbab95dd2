import DocPath.Navigator.Dialogue

/-!
# Navigators

A navigator moves one step into a value and knows nothing of what happens after that step.

* `Navigator` — the built-in ones and those of the user;
* `Navigator.name` — the short name that errors and descriptions give;
* `Navigator.isInsertionPoint` — those that name a place where nothing is yet.
-/

namespace DocPath

/-- A navigator of the user: what it hands on when a value is read, and how it rebuilds a focus. -/
structure UserNavigator where
  select : Value → Dialogue Value Unit Unit
  transform : Focus → Dialogue Focus Focus Focus

/-- One step into a value. -/
inductive Navigator where
  /-- Every element of a sequence, or every `[key, value]` pair of a mapping. -/
  | all
  /-- Every value of a mapping. -/
  | mapVals
  /-- Every key of a mapping. -/
  | mapKeys
  /-- The first element of a sequence. -/
  | first
  /-- The last element of a sequence. -/
  | last
  /-- The empty sequence before the first element. -/
  | beginning
  /-- The empty sequence after the last element. -/
  | ending
  /-- The place before the first element. -/
  | beforeElem
  /-- The place after the last element. -/
  | afterElem
  /-- The value under a key. -/
  | key (name : String)
  /-- The element at an index; a negative one counts from the end. -/
  | nth (index : Int64)
  /-- The place before an index. -/
  | beforeIndex (index : Int64)
  /-- Goes on only where the predicate holds. -/
  | pred (holds : Value → Bool)
  /-- A projection of the value, which an update puts in the value's place. -/
  | view (project : Value → Value)
  /-- A parsed form of the value, brought back by `unparse` after an update. -/
  | parser (parse unparse : Value → Except NavError Value)
  /-- The part of a mapping under the named keys. -/
  | submap (names : List String)
  /-- The elements of a sequence in which a path reaches something defined. -/
  | filterer (path : List Navigator)
  /-- A navigator of the user. -/
  | custom (user : UserNavigator)

namespace Navigator

/-- The short name of a navigator. -/
def name : Navigator → String
  | .all => "ALL"
  | .mapVals => "MAP_VALS"
  | .mapKeys => "MAP_KEYS"
  | .first => "FIRST"
  | .last => "LAST"
  | .beginning => "BEGINNING"
  | .ending => "END"
  | .beforeElem => "BEFORE_ELEM"
  | .afterElem => "AFTER_ELEM"
  | .key _ => "key"
  | .nth _ => "nth"
  | .beforeIndex _ => "before_index"
  | .pred _ => "pred"
  | .view _ => "view"
  | .parser _ _ => "parser"
  | .submap _ => "submap"
  | .filterer _ => "filterer"
  | .custom _ => "custom"

/-- Insertion points read nothing: they select nothing, and a transform calls its update there
exactly once. -/
def isInsertionPoint : Navigator → Bool
  | .beginning | .ending | .beforeElem | .afterElem | .beforeIndex _ => true
  | _ => false

def isCustom : Navigator → Bool
  | .custom _ => true
  | _ => false

/-- The error of a navigator that met a value of the wrong kind. -/
def mismatch (n : Navigator) (expected found : String) : NavError :=
  .shapeMismatch n.name expected found

/-- The error of a navigator that wants a mapping. -/
def wantsMapping (n : Navigator) (found : String) : NavError := n.mismatch "a mapping" found

/-- The error of a navigator that wants a sequence. -/
def wantsSequence (n : Navigator) (found : String) : NavError := n.mismatch "a sequence" found

end Navigator

end DocPath
