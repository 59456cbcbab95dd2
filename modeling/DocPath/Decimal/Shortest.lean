/-!
# Shortest decimals

The fewest decimal digits that still read back as a given double precision number, and of these
digits the nearest to it. All arithmetic is exact.

* `Decimal` — a natural number times a power of ten;
* `Binary` — the exact value of a positive double and the interval of reals that round to it;
* `Decimal.shortest?` — the point of the coarsest decimal grid that lies in the interval.
-/

namespace DocPath

/-- The number `digits · 10 ^ exponent`. -/
structure Decimal where
  digits : Nat
  exponent : Int
deriving DecidableEq, Inhabited

/-- A positive number with the interval of reals that round to it, in units of `2 ^ exponent`.
The ends belong to the interval when `closed` holds. -/
structure Binary where
  value : Nat
  below : Nat
  above : Nat
  exponent : Int
  closed : Bool

namespace Binary

/-- The number with the given bits, its sign dropped. Next to a power of two the neighbour below
is half as far away as the one above. -/
def ofBits (bits : UInt64) : Binary :=
  let fraction := bits.toNat % Nat.pow 2 52
  let biased := bits.toNat / Nat.pow 2 52 % Nat.pow 2 11
  let mantissa := if biased = 0 then fraction else Nat.pow 2 52 + fraction
  let gap := if fraction = 0 ∧ biased > 1 then 1 else 2
  { value := 4 * mantissa, below := 4 * mantissa - gap, above := 4 * mantissa + 2
    exponent := (if biased = 0 then 1 else biased : Nat) - 1077, closed := mantissa % 2 == 0 }

end Binary

namespace Decimal

/-- Numerator and denominator of `2 ^ e / 10 ^ p`. -/
def ratio (e p : Int) : Nat × Nat :=
  (Nat.pow 2 e.toNat * Nat.pow 10 (-p).toNat, Nat.pow 2 (-e).toNat * Nat.pow 10 p.toNat)

/-- Whether `k · 10 ^ p` lies in the interval of `b`. -/
def within (b : Binary) (p : Int) (k : Nat) : Bool :=
  let (num, den) := ratio b.exponent p
  if b.closed then b.below * num ≤ k * den && k * den ≤ b.above * num
  else b.below * num < k * den && k * den < b.above * num

/-- The point of the grid of multiples of `10 ^ p` that lies in the interval: one of the two next
to the value, the nearer if both do, the even one if both are as near. -/
def onGrid? (b : Binary) (p : Int) : Option Nat :=
  let (num, den) := ratio b.exponent p
  let k := b.value * num / den
  match within b p k, within b p (k + 1) with
  | false, false => none
  | true, false => some k
  | false, true => some (k + 1)
  | true, true =>
    let twice := 2 * (b.value * num)
    let middle := (2 * k + 1) * den
    if twice < middle then some k
    else if middle < twice then some (k + 1)
    else some (if k % 2 = 0 then k else k + 1)

/-- The exponents of the decimal grids on which doubles lie, the coarsest first. -/
def gridExponents : List Int := (List.range 656).map fun i => (310 : Int) - (i : Nat)

/-- The shortest decimal of a positive number. -/
def shortest? (b : Binary) : Option Decimal :=
  gridExponents.findSome? fun p => (onGrid? b p).map fun k => ⟨k, p⟩

end Decimal

end DocPath
