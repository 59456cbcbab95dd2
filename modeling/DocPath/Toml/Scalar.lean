import DocPath.Decimal.Rounding
import DocPath.Text.Digits

/-!
# TOML scalars

Strings in their four forms, numbers, dates and times, each read at the start of a text.

* `Toml.readBasic`, `Toml.readLiteral` — strings on one line, after the opening quote;
* `Toml.readLongBasic`, `Toml.readLongLiteral` — strings over many lines, after the opening quotes;
* `Toml.readNumber` — skips a date, a time or a number, which must be in range.
-/

namespace DocPath

namespace Toml

open Text (spanDigits ofDigits)

/-! ### Characters -/

/-- Blanks within a line. -/
def isBlank (c : Char) : Bool := c == ' ' || c == '\t'

def skipBlank (s : List Char) : List Char := s.dropWhile isBlank

/-- Characters that comments and literal strings may hold: no control character but the tab. -/
def isPlain (c : Char) : Bool := c == '\t' || (0x20 ≤ c.toNat && c.toNat != 0x7f)

/-- The rest after a line end, which is a line feed with or without a carriage return. -/
def newline? : List Char → Option (List Char)
  | '\n' :: rest => some rest
  | '\r' :: '\n' :: rest => some rest
  | _ => none

/-! ### Strings -/

/-- The character that a backslash and one more character stand for. -/
def unescape? : Char → Option Char
  | 'b' => some '\x08'
  | 't' => some '\t'
  | 'n' => some '\n'
  | 'f' => some '\x0c'
  | 'r' => some '\r'
  | '"' => some '"'
  | '\\' => some '\\'
  | _ => none

/-- Reads what follows a backslash. -/
def readEscape : List Char → Option (Char × List Char)
  | 'u' :: a :: b :: c :: d :: rest => do
    let n ← Text.ofRadix? 16 [a, b, c, d]
    let c ← Text.charOfCode? n
    some (c, rest)
  | 'U' :: a :: b :: c :: d :: e :: f :: g :: h :: rest => do
    let n ← Text.ofRadix? 16 [a, b, c, d, e, f, g, h]
    let c ← Text.charOfCode? n
    some (c, rest)
  | c :: rest => (unescape? c).map fun c => (c, rest)
  | [] => none

/-- Reads a basic string up to its closing quote. -/
def readBasic : (fuel : Nat) → List Char → Option (List Char × List Char)
  | 0, _ => none
  | fuel + 1, s =>
    match s with
    | '"' :: rest => some ([], rest)
    | '\\' :: rest => do
      let (c, rest) ← readEscape rest
      let (cs, rest) ← readBasic fuel rest
      some (c :: cs, rest)
    | c :: rest =>
      if isPlain c then (readBasic fuel rest).map fun r => (c :: r.1, r.2) else none
    | [] => none

/-- Reads a literal string up to its closing quote. -/
def readLiteral : List Char → Option (List Char × List Char)
  | '\'' :: rest => some ([], rest)
  | c :: rest => if isPlain c then (readLiteral rest).map fun r => (c :: r.1, r.2) else none
  | [] => none

/-- The rest after blanks and line ends. -/
def skipSpace (s : List Char) : List Char :=
  match s with
  | ' ' :: rest => skipSpace rest
  | '\t' :: rest => skipSpace rest
  | '\n' :: rest => skipSpace rest
  | '\r' :: '\n' :: rest => skipSpace rest
  | s => s

/-- A run of closing quotes: three end the string and up to two more before them belong to it.
Gives how many belong to it, with the rest. -/
def closing? (q : Char) (s : List Char) : Option (Nat × List Char) :=
  let n := min (s.takeWhile (· == q)).length 5
  if n ≥ 3 then some (n - 3, s.drop n) else none

/-- Reads a basic string of many lines. A backslash at the end of a line swallows the blanks and
line ends after it. -/
def readLongBasic : (fuel : Nat) → List Char → Option (List Char × List Char)
  | 0, _ => none
  | fuel + 1, s =>
    match closing? '"' s with
    | some (n, rest) => some (List.replicate n '"', rest)
    | none =>
      match newline? s with
      | some rest => (readLongBasic fuel rest).map fun r => ('\n' :: r.1, r.2)
      | none =>
        match s with
        | '\\' :: rest =>
          match newline? (skipBlank rest) with
          | some rest => readLongBasic fuel (skipSpace rest)
          | none => do
            let (c, rest) ← readEscape rest
            let (cs, rest) ← readLongBasic fuel rest
            some (c :: cs, rest)
        | c :: rest =>
          if isPlain c then (readLongBasic fuel rest).map fun r => (c :: r.1, r.2) else none
        | [] => none

/-- Reads a literal string of many lines. -/
def readLongLiteral : (fuel : Nat) → List Char → Option (List Char × List Char)
  | 0, _ => none
  | fuel + 1, s =>
    match closing? '\'' s with
    | some (n, rest) => some (List.replicate n '\'', rest)
    | none =>
      match newline? s with
      | some rest => (readLongLiteral fuel rest).map fun r => ('\n' :: r.1, r.2)
      | none =>
        match s with
        | c :: rest =>
          if isPlain c then (readLongLiteral fuel rest).map fun r => (c :: r.1, r.2) else none
        | [] => none

/-- The text after the first line end of a string of many lines, which does not count. -/
def dropFirstNewline (s : List Char) : List Char := (newline? s).getD s

/-- Reads a string at the start of a text. -/
def readString (s : List Char) : Option (String × List Char) :=
  let fuel := s.length + 1
  let read := match s with
    | '"' :: '"' :: '"' :: rest => readLongBasic fuel (dropFirstNewline rest)
    | '"' :: rest => readBasic fuel rest
    | '\'' :: '\'' :: '\'' :: rest => readLongLiteral fuel (dropFirstNewline rest)
    | '\'' :: rest => readLiteral rest
    | _ => none
  read.map fun r => (String.ofList r.1, r.2)

/-! ### Digits with underscores -/

/-- Reads digits that may be parted by single underscores, at least one. -/
def readDigits (isDigit : Char → Bool) : List Char → Option (List Char × List Char)
  | c :: '_' :: rest =>
    if isDigit c then (readDigits isDigit rest).map fun r => (c :: r.1, r.2) else none
  | c :: d :: rest =>
    if isDigit c then
      if isDigit d then (readDigits isDigit (d :: rest)).map fun r => (c :: r.1, r.2)
      else some ([c], d :: rest)
    else none
  | [c] => if isDigit c then some ([c], []) else none
  | [] => none

/-- Reads the digits of a decimal whole number: a lone zero, or digits that do not start with
zero. -/
def readWhole : List Char → Option (List Char × List Char)
  | '0' :: rest => some (['0'], rest)
  | s => readDigits Char.isDigit s

/-- Reads the sign of a number; holds for a minus. -/
def readSign : List Char → Bool × List Char
  | '+' :: rest => (false, rest)
  | '-' :: rest => (true, rest)
  | s => (false, s)

/-- Skips an integer, which must fit 64 bits with sign. Only decimal ones may have a sign. -/
def readInteger (s : List Char) : Option (List Char) :=
  let based (base : Nat) (s : List Char) : Option (List Char) := do
    let (digits, rest) ← readDigits (fun c => (Text.digit? base c).isSome) s
    let n ← Text.ofRadix? base digits
    if n < Nat.pow 2 63 then some rest else none
  match s with
  | '0' :: 'x' :: rest => based 16 rest
  | '0' :: 'o' :: rest => based 8 rest
  | '0' :: 'b' :: rest => based 2 rest
  | s => do
    let (negative, s) := readSign s
    let (digits, rest) ← readWhole s
    let n := ofDigits digits
    if n < Nat.pow 2 63 ∨ (negative ∧ n = Nat.pow 2 63) then some rest else none

/-- Reads the digits after a point, if there is one. -/
def readFraction : List Char → Option (List Char × List Char)
  | '.' :: rest => readDigits Char.isDigit rest
  | s => some ([], s)

/-- Reads an exponent, if there is one. -/
def readExponent : List Char → Option (Option Int × List Char)
  | c :: rest =>
    if c == 'e' || c == 'E' then do
      let (negative, rest) := readSign rest
      let (digits, rest) ← readDigits Char.isDigit rest
      let n : Int := ofDigits digits
      some (some (if negative then -n else n), rest)
    else some (none, c :: rest)
  | [] => some (none, [])

/-- Skips a float with a fraction or an exponent; a positive one must not be too large. -/
def readFloat (s : List Char) : Option (List Char) := do
  let (negative, s) := readSign s
  let (whole, s) ← readWhole s
  let (fraction, s) ← readFraction s
  let (exponent, s) ← readExponent s
  if fraction.isEmpty && exponent.isNone then none
  else
    let e : Int := exponent.getD 0 - (fraction.length : Nat)
    let x := Decimal.toFloat ⟨ofDigits (whole ++ fraction), e⟩
    if x.isInf && !negative then none else some s

/-- Skips a word for infinity or for not a number. -/
def readSpecial (s : List Char) : Option (List Char) :=
  let (_, s) := readSign s
  (Text.after? ['i', 'n', 'f'] s).or (Text.after? ['n', 'a', 'n'] s)

/-! ### Dates and times -/

/-- Reads exactly `n` digits. -/
def readFixed (n : Nat) (s : List Char) : Option (Nat × List Char) :=
  let digits := s.take n
  if digits.length = n ∧ digits.all Char.isDigit then some (ofDigits digits, s.drop n) else none

/-- The rest after the given character. -/
def afterChar? (c : Char) : List Char → Option (List Char)
  | c' :: rest => if c == c' then some rest else none
  | [] => none

def daysIn (year month : Nat) : Nat :=
  if month = 2 then
    if year % 4 = 0 ∧ (year % 100 ≠ 0 ∨ year % 400 = 0) then 29 else 28
  else if month = 4 ∨ month = 6 ∨ month = 9 ∨ month = 11 then 30
  else 31

/-- Skips a date that the calendar has. -/
def readDate (s : List Char) : Option (List Char) := do
  let (year, s) ← readFixed 4 s
  let s ← afterChar? '-' s
  let (month, s) ← readFixed 2 s
  let s ← afterChar? '-' s
  let (day, s) ← readFixed 2 s
  if 1 ≤ month ∧ month ≤ 12 ∧ 1 ≤ day ∧ day ≤ daysIn year month then some s else none

/-- Skips hours and minutes. -/
def readClock (s : List Char) : Option (List Char) := do
  let (hour, s) ← readFixed 2 s
  let s ← afterChar? ':' s
  let (minute, s) ← readFixed 2 s
  if hour ≤ 23 ∧ minute ≤ 59 then some s else none

/-- Skips a time of day; a leap second is allowed. -/
def readTime (s : List Char) : Option (List Char) := do
  let s ← readClock s
  let s ← afterChar? ':' s
  let (second, s) ← readFixed 2 s
  if second ≤ 60 then
    match s with
    | '.' :: rest =>
      let (digits, rest) := spanDigits rest
      if digits.isEmpty then none else some rest
    | s => some s
  else none

/-- Skips the distance from universal time, if one is given. -/
def skipOffset (s : List Char) : Option (List Char) :=
  match s with
  | 'Z' :: rest => some rest
  | 'z' :: rest => some rest
  | '+' :: rest => readClock rest
  | '-' :: rest => readClock rest
  | s => some s

/-- Skips a date with or without a time, or a time alone. -/
def readDateTime (s : List Char) : Option (List Char) :=
  match readDate s with
  | none => readTime s
  | some rest =>
    match rest with
    | c :: rest' =>
      if c == 'T' || c == 't' || c == ' ' then
        match readTime rest' with
        | some rest'' => skipOffset rest''
        | none => some rest
      else some rest
    | [] => some []

/-- Skips a date, a time or a number. -/
def readNumber (s : List Char) : Option (List Char) :=
  (readDateTime s).or ((readFloat s).or ((readSpecial s).or (readInteger s)))

end Toml

end DocPath
