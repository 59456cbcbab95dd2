import DocPath.Entries

/-!
# TOML documents

* `Toml` — a value; numbers and dates are recognised but not kept;
* `Toml.Origin` — how a table came to be, which decides how it may still grow;
* `Toml.Statement` — one line of a document.
-/

namespace DocPath

namespace Toml

/-- How a table came to be. -/
inductive Origin where
  /-- Written between braces. -/
  | braces
  /-- Named by a header of its own. -/
  | header
  /-- Passed through by the header of another table. -/
  | passed
  /-- Made by a dotted key. -/
  | dotted
deriving DecidableEq, Inhabited

end Toml

/-- A TOML value. -/
inductive Toml where
  | text (s : String)
  | flag (b : Bool)
  /-- A number, a date or a time. -/
  | other
  | array (items : List Toml)
  /-- The tables of one name with a header each, the last one first. -/
  | tables (newestFirst : List (List (String × Toml)))
  | table (origin : Toml.Origin) (entries : List (String × Toml))
deriving Inhabited

namespace Toml

/-- One line of a document. -/
inductive Statement where
  | keyValue (path : List String) (value : Toml)
  | header (path : List String)
  | arrayHeader (path : List String)

end Toml

end DocPath
