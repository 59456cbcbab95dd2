/-!
# Reading errors

Why a text could not be read. Where in the text the fault lies is not told.
-/

namespace DocPath

/-- What a text should have held and does not. -/
inductive ReadError where
  /-- A document. -/
  | document
  /-- Settings. -/
  | config
deriving DecidableEq, Inhabited

namespace ReadError

/-- The text of the error. -/
def message : ReadError → String
  | .document => "Failed to parse YAML structure"
  | .config => "Invalid navpath configuration"

end ReadError

end DocPath
