/-!
# Settings

What governs the use of a path: how one focus is chosen among several, and whether a transform
may leave nothing of the document.
-/

namespace DocPath

/-- How one focus is chosen among several. -/
inductive SelectOneMode where
  /-- More than one is an error. -/
  | strict
  /-- The first that is met. -/
  | first
  /-- The last that is met. -/
  | last
deriving DecidableEq, Inhabited

namespace SelectOneMode

/-- The word for a mode. -/
def name : SelectOneMode → String
  | .strict => "strict"
  | .first => "first"
  | .last => "last"

/-- The mode that a word names. -/
def ofName? : String → Option SelectOneMode
  | "strict" => some .strict
  | "first" => some .first
  | "last" => some .last
  | _ => none

theorem ofName?_name (m : SelectOneMode) : ofName? m.name = some m := by cases m <;> rfl

end SelectOneMode

/-- The settings of a path. -/
structure Config where
  selectOne : SelectOneMode := .strict
  /-- A transform that removes the whole document yields null instead of an error. -/
  allowRootRemoval : Bool := false
deriving DecidableEq, Inhabited

end DocPath
