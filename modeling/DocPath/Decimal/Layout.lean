import DocPath.Decimal.Shortest

/-!
# Layout of decimals

How a decimal is written out: which ones stand with a plain point, and how the others carry an
exponent.

* `Decimal.Layout` — the choices of a format;
* `Decimal.render` — the text of a decimal;
* `Decimal.floatText` — the text of a finite double.
-/

namespace DocPath

namespace Decimal

/-- The choices of a format. The point of a decimal stands `point` digits from the left of its
first digit; within the bounds it is written without an exponent. -/
structure Layout where
  /-- Points above this one take an exponent. -/
  maxPoint : Int
  /-- Points up to this one take an exponent. -/
  minPoint : Int
  /-- What follows the digits of a whole number without exponent. -/
  wholeTail : String
  /-- The mark before the exponent. -/
  mark : String

/-- `n` zeros. -/
def zeros (n : Nat) : String := String.ofList (List.replicate n '0')

/-- The text of a positive decimal. -/
def render (l : Layout) (d : Decimal) : String :=
  let digits := Nat.toDigits 10 d.digits
  let point : Int := digits.length + d.exponent
  if 0 ≤ d.exponent ∧ point ≤ l.maxPoint then
    String.ofList digits ++ zeros d.exponent.toNat ++ l.wholeTail
  else if 0 < point ∧ point ≤ l.maxPoint then
    String.ofList (digits.take point.toNat) ++ "." ++ String.ofList (digits.drop point.toNat)
  else if l.minPoint < point ∧ point ≤ 0 then
    "0." ++ zeros (-point).toNat ++ String.ofList digits
  else
    let fraction := digits.drop 1
    String.ofList (digits.take 1)
      ++ (if fraction.isEmpty then "" else "." ++ String.ofList fraction)
      ++ l.mark ++ toString (point - 1)

/-- The text of a finite double. -/
def floatText (l : Layout) (x : Float) : String :=
  let sign := if x.toBits.toNat ≥ Nat.pow 2 63 then "-" else ""
  let b := Binary.ofBits x.toBits
  if b.value = 0 then sign ++ "0" ++ l.wholeTail
  else sign ++ ((shortest? b).map (render l)).getD ""

end Decimal

end DocPath
