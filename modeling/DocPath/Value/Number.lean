import DocPath.Decimal.Layout
import DocPath.Value.Basic

/-!
# Numbers as text

How the document formats write numbers. Floats have the fewest digits that read back. They are
written with a point from 0.00001 up to 10^16 and always show a fraction; beyond that they have
one digit before the point and an exponent without plus sign or padding.

* `Value.floatLayout`, `Value.floatText`, `Value.integerText`.
-/

namespace DocPath

namespace Value

/-- The layout of floats in documents. -/
def floatLayout : Decimal.Layout := ⟨16, -5, ".0", "e"⟩

/-- The text of a finite float. -/
def floatText (x : Float) : String := Decimal.floatText floatLayout x

/-- An integer in decimal. -/
def integerText (n : Int64) : String := toString n.toInt

end Value

end DocPath
