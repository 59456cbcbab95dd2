/-!
# Digits

Reading numbers and fixed words at the start of a text.

* `Text.after?` — the text after a given word;
* `Text.spanDigits`, `Text.ofDigits` — leading decimal digits, and the number that digits write;
* `Text.ofRadix?` — the number that digits of a given base write;
* `Text.charOfCode?` — the character with a given code, if there is one.
-/

namespace DocPath

namespace Text

/-- The rest of the text after the given word. -/
def after? (word : List Char) (s : List Char) : Option (List Char) :=
  if word.isPrefixOf s then some (s.drop word.length) else none

/-- The value of a decimal digit. -/
def digitValue (c : Char) : Nat := c.toNat - '0'.toNat

/-- The leading decimal digits and the rest. -/
def spanDigits (s : List Char) : List Char × List Char :=
  (s.takeWhile Char.isDigit, s.dropWhile Char.isDigit)

/-- The number that decimal digits write. -/
def ofDigits (digits : List Char) : Nat := digits.foldl (fun n c => 10 * n + digitValue c) 0

/-- The value of a hexadecimal digit of either case. -/
def hexValue? (c : Char) : Option Nat :=
  if c.isDigit then some (digitValue c)
  else if 'a' ≤ c ∧ c ≤ 'f' then some (c.toNat - 'a'.toNat + 10)
  else if 'A' ≤ c ∧ c ≤ 'F' then some (c.toNat - 'A'.toNat + 10)
  else none

def isHexDigit (c : Char) : Bool := (hexValue? c).isSome

/-- The value of a digit in the given base, which is at most sixteen. -/
def digit? (base : Nat) (c : Char) : Option Nat := (hexValue? c).filter (· < base)

/-- The number that at least one digit of the given base writes. -/
def ofRadix? (base : Nat) (digits : List Char) : Option Nat :=
  if digits.isEmpty then none
  else digits.foldlM (fun n c => (digit? base c).map fun d => base * n + d) 0

/-- The character with the given code; surrogates and codes out of range have none. -/
def charOfCode? (n : Nat) : Option Char := if n.isValidChar then some (Char.ofNat n) else none

end Text

end DocPath
