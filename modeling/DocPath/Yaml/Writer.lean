import DocPath.Value.Number
import DocPath.Yaml.Style

/-!
# Writing YAML

Blocks with an indentation of two. The items of a sequence under a key stand as far left as the
key, and a block inside an item begins on the line of its dash. Empty containers are written with
brackets or braces, and `undefined` as null.

* `Yaml.scalarText` — a string in the style chosen for it;
* `Yaml.block` — a container, from the place where it begins;
* `Yaml.write` — the text of a value.
-/

namespace DocPath

namespace Yaml

/-! ### Strings -/

/-- A number in `width` hexadecimal digits of upper case. -/
def hexText (width n : Nat) : String :=
  let digits := (Nat.toDigits 16 n).map Char.toUpper
  String.ofList (List.replicate (width - digits.length) '0' ++ digits)

/-- A character that cannot stand in double quotes as it is. -/
def escape (c : Char) : String :=
  match c with
  | '\x00' => "\\0"
  | '\x07' => "\\a"
  | '\x08' => "\\b"
  | '\t' => "\\t"
  | '\n' => "\\n"
  | '\x0b' => "\\v"
  | '\x0c' => "\\f"
  | '\r' => "\\r"
  | '\x1b' => "\\e"
  | '"' => "\\\""
  | '\\' => "\\\\"
  | '\u0085' => "\\N"
  | '\u2028' => "\\L"
  | '\u2029' => "\\P"
  | c =>
    let n := c.toNat
    if n ≤ 0xff then "\\x" ++ hexText 2 n
    else if n ≤ 0xffff then "\\u" ++ hexText 4 n
    else "\\U" ++ hexText 8 n

/-- One character between double quotes. -/
def doubleQuotedChar (c : Char) : String :=
  if !isPrintable c || isBreak c || c == '"' || c == '\\' then escape c else c.toString

def doubleQuoted (s : List Char) : String :=
  "\"" ++ String.join (s.map doubleQuotedChar) ++ "\""

def spaces (n : Nat) : List Char := List.replicate n ' '

/-- The characters with every line indented; `fresh` holds at the start of a line. -/
def indentLines (indent : Nat) : (fresh : Bool) → List Char → List Char
  | _, [] => []
  | fresh, c :: rest =>
    if isBreak c then c :: indentLines indent true rest
    else (if fresh then spaces indent else []) ++ c :: indentLines indent false rest

/-- A quote inside single quotes is written twice; a line end is followed by the indentation. -/
def singleQuoted (indent : Nat) (s : List Char) : String :=
  let doubled := s.flatMap fun c => if c == '\'' then ['\'', '\''] else [c]
  String.ofList ('\'' :: indentLines indent false (doubled ++ ['\'']))

/-- The marks after the bar of a literal: the indentation if the text starts with a blank, and
how its last line ends. -/
def literalMarks (s : List Char) : List Char :=
  let hint := match s with
    | c :: _ => if isSpace c || isBreak c then ['2'] else []
    | [] => []
  let ending := match s.reverse with
    | [] => ['-']
    | [c] => if isBreak c then ['+'] else ['-']
    | c :: d :: _ => if isBreak c then (if isBreak d then ['+'] else []) else ['-']
  hint ++ ending

def literal (indent : Nat) (s : List Char) : String :=
  String.ofList ('|' :: (literalMarks s ++ '\n' :: indentLines indent true s))

/-- A string in its style; the lines of a literal are indented by `indent`. -/
def scalarText (indent : Nat) (s : String) : String :=
  match style s with
  | .plain => s
  | .singleQuoted => singleQuoted indent s.toList
  | .doubleQuoted => doubleQuoted s.toList
  | .literal => literal indent s.toList

/-! ### Lines -/

/-- Ends the line, unless the text has just ended one. -/
def endLine (s : String) : String :=
  match s.toList.getLast? with
  | some c => if isBreak c then s else s ++ "\n"
  | none => s

/-- Texts below one another; all but the first are indented. -/
def stack (indent : Nat) : List String → String
  | [] => ""
  | [s] => s
  | s :: t :: rest => endLine s ++ String.ofList (spaces indent) ++ stack indent (t :: rest)

/-! ### Values -/

/-- Whether a key fits on a line with its colon. -/
def isShortKey (k : String) : Bool := k.utf8ByteSize ≤ 128 && !k.toList.any isBreak

/-- The text of a float. -/
def floatText (x : Float) : String :=
  if x.isNaN then ".nan"
  else if x.isInf then (if x < 0.0 then "-.inf" else ".inf")
  else Value.floatText x

/-- The text of a value that is no block. -/
def leafText (indent : Nat) : Value → String
  | .null | .undefined => "null"
  | .bool b => if b then "true" else "false"
  | .integer n => Value.integerText n
  | .float x => floatText x
  | .string s => scalarText indent s
  | .sequence _ => "[]"
  | .mapping _ => "\x7b\x7d"

mutual

/-- A value from the place where it begins; its further lines are indented by `indent`. -/
def block (indent : Nat) : Value → String
  | .sequence (v :: vs) => stack indent (items indent (v :: vs))
  | .mapping (e :: m) => stack indent (members indent (e :: m))
  | v => leafText indent v

/-- The items of a sequence with their dashes. -/
def items (indent : Nat) : List Value → List String
  | [] => []
  | v :: vs => ("- " ++ block (indent + 2) v) :: items indent vs

/-- What follows a key and its colon. -/
def afterKey (indent : Nat) : Value → String
  | .sequence (v :: vs) =>
      "\n" ++ String.ofList (spaces indent) ++ stack indent (items indent (v :: vs))
  | .mapping (e :: m) =>
      "\n" ++ String.ofList (spaces (indent + 2))
        ++ stack (indent + 2) (members (indent + 2) (e :: m))
  | v => " " ++ leafText (indent + 2) v

/-- The entries of a mapping. A key that does not fit on a line stands after a question mark. -/
def members (indent : Nat) : List (String × Value) → List String
  | [] => []
  | (k, v) :: m =>
    (if isShortKey k then scalarText (indent + 2) k ++ ":" ++ afterKey indent v
     else stack indent ["? " ++ scalarText (indent + 2) k, ": " ++ block (indent + 2) v])
      :: members indent m

end

/-- The text of a value, which ends with a line end. -/
def write (v : Value) : String :=
  endLine (match v with
    | .sequence (_ :: _) | .mapping (_ :: _) => block 0 v
    | v => leafText 2 v)

end Yaml

end DocPath
