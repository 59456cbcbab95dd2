import DocPath.Decimal.Shortest

/-!
# Reading decimals

* `Decimal.toFloat` — the double nearest to a decimal, ties to the even neighbour.
-/

namespace DocPath

namespace Decimal

/-- The double nearest to the decimal; infinite above the largest double and zero far below the
smallest. -/
def toFloat (d : Decimal) : Float :=
  let point : Int := (Nat.toDigits 10 d.digits).length + d.exponent
  if d.digits = 0 ∨ point < -330 then 0.0
  else if point > 310 then 1.0 / 0.0
  else Float.ofScientific d.digits (d.exponent < 0) d.exponent.natAbs

end Decimal

end DocPath
