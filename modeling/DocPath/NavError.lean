/-!
# Navigation errors

* `NavError` — why a selection or a transform failed;
* `NavError.message` — its text.
-/

namespace DocPath

/-- The causes of failure while following a path. -/
inductive NavError where
  /-- A navigator met a value of the wrong kind. -/
  | shapeMismatch (navigator expected found : String)
  /-- A write went to an index outside the sequence; the index is kept as the caller wrote it. -/
  | indexOutOfRange (index : Int64) (length : Nat)
  /-- A renamed mapping key was neither a string nor an integer. -/
  | invalidKey (found : String)
  /-- An updated mapping entry was not a pair. -/
  | invalidEntry (found : String)
  /-- A strict choice of one focus met several. -/
  | multipleFocuses (count : Nat)
  /-- A transform left nothing of the document. -/
  | rootRemoved
  /-- Raised by parsers, updates and navigators that the user supplies. -/
  | custom (text : String)
deriving DecidableEq, Inhabited

namespace NavError

/-- The text of an error. -/
def message : NavError → String
  | .shapeMismatch navigator expected found =>
      navigator ++ " expected " ++ expected ++ ", found " ++ found
  | .indexOutOfRange index length =>
      "index " ++ toString index.toInt ++ " is out of range for a sequence of length "
        ++ toString length
  | .invalidKey found => "mapping keys must be strings or integers, found " ++ found
  | .invalidEntry found => "mapping entries must be [key, value] pairs, found " ++ found
  | .multipleFocuses count => "expected at most one focus, found " ++ toString count
  | .rootRemoved => "transform removed the root structure"
  | .custom text => text

end NavError

end DocPath
