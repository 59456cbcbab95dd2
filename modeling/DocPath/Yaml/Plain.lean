import DocPath.Decimal.Rounding
import DocPath.Text.Digits

/-!
# Plain YAML scalars

What a scalar without quotes stands for.

* `Yaml.Plain` — the kinds of plain scalars;
* `Yaml.integer?`, `Yaml.float?`, `Yaml.bool?` — the spellings of numbers and truth values;
* `Yaml.resolve` — the kind of a plain scalar.
-/

namespace DocPath

namespace Yaml

/-- What a plain scalar stands for. -/
inductive Plain where
  | null
  | bool (b : Bool)
  | integer (n : Int)
  | float (x : Float)
  | text

/-- Spellings of null; so is an empty scalar. -/
def isNull (s : String) : Bool := s == "null" || s == "Null" || s == "NULL" || s == "~"

def bool? (s : String) : Option Bool :=
  if s == "true" || s == "True" || s == "TRUE" then some true
  else if s == "false" || s == "False" || s == "FALSE" then some false
  else none

/-! ### Integers -/

/-- Holds for digits after a needless leading zero, with a sign or not. They are text. -/
def isPadded (s : List Char) : Bool :=
  let digits := match s with
    | '+' :: rest => rest
    | '-' :: rest => rest
    | s => s
  digits.length > 1 && digits.head? == some '0' && digits.all Char.isDigit

/-- The number written by digits with the mark of their base. -/
def based? : List Char → Option Nat
  | '0' :: 'x' :: digits => Text.ofRadix? 16 digits
  | '0' :: 'o' :: digits => Text.ofRadix? 8 digits
  | '0' :: 'b' :: digits => Text.ofRadix? 2 digits
  | _ => none

/-- The number written by an integer of either sign, however large: up to 128 bits without sign,
or with sign. -/
def integer? (s : List Char) : Option Int :=
  let decimal? (digits : List Char) : Option Nat :=
    if isPadded s then none else Text.ofRadix? 10 digits
  match s with
  | '-' :: rest =>
    (((based? rest).or (decimal? rest)).filter (· ≤ Nat.pow 2 127)).map fun n => -(n : Int)
  | '+' :: rest =>
    (((based? rest).or (decimal? rest)).filter (· < Nat.pow 2 128)).map fun n => (n : Int)
  | s => (((based? s).or (decimal? s)).filter (· < Nat.pow 2 128)).map fun n => (n : Int)

/-! ### Floats -/

/-- Digits with a point in, before or after them, and an exponent or not. -/
def decimal? (s : List Char) : Option Decimal :=
  let (whole, s) := Text.spanDigits s
  let (fraction, s) := match s with
    | '.' :: rest => Text.spanDigits rest
    | s => ([], s)
  if whole.isEmpty && fraction.isEmpty then none
  else
    let digits := Text.ofDigits (whole ++ fraction)
    match s with
    | [] => some ⟨digits, -(fraction.length : Nat)⟩
    | c :: rest =>
      if c == 'e' || c == 'E' then
        let (negative, rest) := match rest with
          | '+' :: rest => (false, rest)
          | '-' :: rest => (true, rest)
          | rest => (false, rest)
        (Text.ofRadix? 10 rest).map fun n =>
          ⟨digits, (if negative then -(n : Int) else n) - (fraction.length : Nat)⟩
      else none

/-- A float that is not infinite. -/
def finite? (s : List Char) : Option Float :=
  let x := match s with
    | '-' :: rest => (decimal? rest).map fun d => -Decimal.toFloat d
    | '+' :: rest => (decimal? rest).map Decimal.toFloat
    | s => (decimal? s).map Decimal.toFloat
  x.filter Float.isFinite

/-- The float that a scalar writes. Numbers too large for a float are not floats. -/
def float? (s : String) : Option Float :=
  let infinity := 1.0 / 0.0
  if s == ".inf" || s == ".Inf" || s == ".INF" || s == "+.inf" || s == "+.Inf" || s == "+.INF" then
    some infinity
  else if s == "-.inf" || s == "-.Inf" || s == "-.INF" then some (-infinity)
  else if s == ".nan" || s == ".NaN" || s == ".NAN" then some (0.0 / 0.0)
  else finite? s.toList

/-! ### All of them -/

/-- The kind of a plain scalar. -/
def resolve (s : String) : Plain :=
  if s.isEmpty || isNull s then .null
  else
    match bool? s with
    | some b => .bool b
    | none =>
      match integer? s.toList with
      | some n => .integer n
      | none =>
        if isPadded s.toList then .text
        else
          match float? s with
          | some x => .float x
          | none => .text

end Yaml

end DocPath
