import DocPath.Navigator.Transform
import DocPath.Text.Quoted

/-!
# Navigators as text

A navigator is written as its name, followed by its argument where that is plain data:
`key("a")`, `nth(-1)`, `submap(["a", "b"])`, `filterer([ALL])`, `pred`.

* `Navigator.text`, `Navigator.pathText`.
-/

namespace DocPath

namespace Navigator

mutual

/-- The text of a navigator. -/
def text : Navigator → String
  | .key name => "key(" ++ Text.quote name ++ ")"
  | .nth index => "nth(" ++ toString index.toInt ++ ")"
  | .beforeIndex index => "before_index(" ++ toString index.toInt ++ ")"
  | .submap names => "submap(" ++ Text.bracket (names.map Text.quote) ++ ")"
  | .filterer path => "filterer(" ++ Text.bracket (texts path) ++ ")"
  | n => n.name

/-- The texts of the navigators of a path. -/
def texts : List Navigator → List String
  | [] => []
  | n :: path => text n :: texts path

end

/-- The text of a path. -/
def pathText (path : List Navigator) : String := Text.bracket (texts path)

end Navigator

end DocPath
