import DocPath.Text.Digits
import DocPath.Value.Content

/-!
# JSON numbers

The grammar of JSON numbers and what they hold. A number without fraction and exponent is a whole
number if it fits 64 bits, with sign if it has one; `-0` and whole numbers beyond are floats. A float
takes as many leading digits as fit 64 bits and is scaled by one power of ten, in floating point.

* `Json.readNumber` — reads a number at the start of a text.
-/

namespace DocPath

namespace Json

open Text (digitValue spanDigits ofDigits)

/-- The parts of a number: digits before and after the point, and the signed exponent. -/
structure Numeral where
  negative : Bool
  whole : List Char
  fraction : Option (List Char)
  /-- Whether the exponent is positive, with its digits. -/
  exponent : Option (Bool × List Char)

/-! ### Grammar -/

/-- The sign of a number; there is no mark for a positive one. -/
def readSign : List Char → Bool × List Char
  | '-' :: rest => (true, rest)
  | rest => (false, rest)

/-- Digits of a whole part: a lone zero, or digits that do not start with zero. -/
def isWhole : List Char → Bool
  | [] => false
  | ['0'] => true
  | c :: _ => c != '0'

/-- Reads a fraction, if a point follows. At least one digit must follow the point. -/
def readFraction : List Char → Option (Option (List Char) × List Char)
  | '.' :: rest =>
    let (digits, rest) := spanDigits rest
    if digits.isEmpty then none else some (some digits, rest)
  | rest => some (none, rest)

/-- The sign of an exponent. -/
def readExponentSign : List Char → Bool × List Char
  | '+' :: rest => (true, rest)
  | '-' :: rest => (false, rest)
  | rest => (true, rest)

/-- Reads an exponent, if one follows. At least one digit must follow its mark. -/
def readExponent : List Char → Option (Option (Bool × List Char) × List Char)
  | c :: rest =>
    if c == 'e' || c == 'E' then
      let (positive, rest) := readExponentSign rest
      let (digits, rest) := spanDigits rest
      if digits.isEmpty then none else some (some (positive, digits), rest)
    else some (none, c :: rest)
  | [] => some (none, [])

/-- Reads the parts of a number. -/
def readNumeral (s : List Char) : Option (Numeral × List Char) := do
  let (negative, s) := readSign s
  let (whole, s) := spanDigits s
  if isWhole whole then
    let (fraction, s) ← readFraction s
    let (exponent, s) ← readExponent s
    some (⟨negative, whole, fraction, exponent⟩, s)
  else none

/-! ### Values -/

/-- Takes up digits as long as the number fits 64 bits; gives it with the digits left over. -/
def absorb : Nat → List Char → Nat × List Char
  | n, [] => (n, [])
  | n, c :: digits =>
    let n' := 10 * n + digitValue c
    if n' < Nat.pow 2 64 then absorb n' digits else (n, c :: digits)

/-- `10 ^ n` as a float. -/
def powerOfTen (n : Nat) : Float := Float.ofScientific 1 false n

/-- `x / 10 ^ n`, by steps within the range of floats. -/
def scaleDown (x : Float) (n : Nat) : Float :=
  if n ≤ 308 then x / powerOfTen n
  else if x == 0.0 then x
  else scaleDown (x / powerOfTen 308) (n - 308)
termination_by n
decreasing_by omega

/-- `n · 10 ^ e` as a float; none if it is out of range. -/
def scale (n : Nat) (e : Int) : Option Float :=
  let x := n.toUInt64.toFloat
  if e < 0 then some (scaleDown x (-e).toNat)
  else if e ≤ 308 then
    let y := x * powerOfTen e.toNat
    if y.isInf then none else some y
  else if n = 0 then some x
  else none

/-- Exponents above this one are out of range whatever the digits. -/
def maxExponent : Nat := Nat.pow 2 31 - 1

/-- The float that a numeral writes, its sign left aside. -/
def Numeral.magnitude (a : Numeral) : Option Float :=
  let (n, skipped) := absorb 0 a.whole
  let fraction := a.fraction.getD []
  let (n, ignored) := absorb n fraction
  let e : Int := skipped.length - (fraction.length - ignored.length : Nat)
  match a.exponent with
  | none => scale n e
  | some (positive, digits) =>
    let x := ofDigits digits
    if x > maxExponent then (if n ≠ 0 ∧ positive then none else some 0.0)
    else scale n (if positive then e + x else e - x)

/-- The float that a numeral writes. -/
def Numeral.toFloat? (a : Numeral) : Option Float :=
  a.magnitude.map fun x => if a.negative then -x else x

/-- The whole number that a numeral without fraction and exponent writes, if it fits 64 bits. Minus
zero is none. -/
def Numeral.wholeNumber? (a : Numeral) : Option Content :=
  if a.fraction.isNone && a.exponent.isNone then
    let n := ofDigits a.whole
    if a.negative then
      (if 0 < n ∧ n ≤ Nat.pow 2 63 then some (.negative (Int64.ofInt (-n))) else none)
    else if n < Nat.pow 2 64 then some (.natural n.toUInt64) else none
  else none

/-- What a numeral holds; none if it is out of range. -/
def Numeral.content (a : Numeral) : Option Content :=
  match a.wholeNumber? with
  | some c => some c
  | none => a.toFloat?.map .float

/-- Reads a number at the start of a text. -/
def readNumber (s : List Char) : Option (Content × List Char) := do
  let (a, s) ← readNumeral s
  let c ← a.content
  some (c, s)

end Json

end DocPath
