import DocPath.Yaml.Plain

/-!
# Styles of YAML scalars

How a string is written so that it reads back as that string.

* `Yaml.isBreak`, `Yaml.isBlank`, `Yaml.isPrintable` — classes of characters;
* `Yaml.Style` — the four ways of writing a scalar;
* `Yaml.style` — the one chosen for a string.
-/

namespace DocPath

namespace Yaml

/-! ### Characters -/

/-- Line ends: also the ones beyond ASCII. -/
def isBreak (c : Char) : Bool :=
  c == '\n' || c == '\r' || c == '\u0085' || c == '\u2028' || c == '\u2029'

/-- A space or a tab. -/
def isBlank (c : Char) : Bool := c == ' ' || c == '\t'

/-- Characters that part words: blanks, line ends and the null character. -/
def isSeparator (c : Char) : Bool := isBlank c || isBreak c || c == '\x00'

/-- Characters that are written as they are. The byte order mark, two codes that are no characters
and all control characters but the line feed are escaped. -/
def isPrintable (c : Char) : Bool :=
  let n := c.toNat
  n == 0x0a || (0x20 ≤ n && n ≤ 0x7e) || (0xa0 ≤ n && n ≤ 0xd7ff)
    || (0xe000 ≤ n && n ≤ 0xfffd && n != 0xfeff) || 0x10000 ≤ n

/-- Whether the text ends here or a separator comes next. -/
def separated : List Char → Bool
  | [] => true
  | c :: _ => isSeparator c

/-! ### What forbids a style -/

/-- Characters that mean something at the start of a scalar. -/
def leadingIndicators : List Char :=
  ['#', ',', '[', ']', '\x7b', '\x7d', '&', '*', '!', '|', '>', '\'', '"', '%', '@', '\x60']

/-- Holds if the start of the text means something else than text. -/
def startsIndicator : List Char → Bool
  | '-' :: '-' :: '-' :: _ => true
  | '.' :: '.' :: '.' :: _ => true
  | c :: rest =>
    leadingIndicators.contains c || ((c == '?' || c == ':' || c == '-') && separated rest)
  | [] => false

/-- Holds if a colon before a separator, or a number sign after one, follows the character `p`. -/
def holdsIndicator (p : Char) : List Char → Bool
  | [] => false
  | c :: rest =>
    (c == ':' && separated rest) || (c == '#' && isSeparator p) || holdsIndicator c rest

/-- Holds if two neighbours answer to the two tests. -/
def hasNeighbours (p q : Char → Bool) : List Char → Bool
  | a :: b :: rest => (p a && q b) || hasNeighbours p q (b :: rest)
  | _ => false

def isSpace (c : Char) : Bool := c == ' '

/-- What a string holds that forbids one style or another. -/
structure Traits where
  multiline : Bool
  /-- An edge is a space or a line end, or something in it reads as syntax. -/
  indicated : Bool
  /-- The last character is a space. -/
  trailingSpace : Bool
  /-- A space follows a line end. -/
  breakSpace : Bool
  /-- A space precedes a line end, or a character does not print. -/
  special : Bool

/-- The traits of a string. -/
def traits (s : List Char) : Traits :=
  let isEdge (c : Char) : Bool := isSpace c || isBreak c
  { multiline := s.any isBreak
    indicated := startsIndicator s || (s.head?.map fun c => holdsIndicator c s.tail).getD false
      || (s.head?.map isEdge).getD false || (s.getLast?.map isEdge).getD false
    trailingSpace := (s.getLast?.map isSpace).getD false
    breakSpace := hasNeighbours isBreak isSpace s
    special := hasNeighbours isSpace isBreak s || s.any fun c => !isPrintable c }

/-! ### The choice -/

/-- The ways of writing a scalar. -/
inductive Style where
  | plain
  | singleQuoted
  | doubleQuoted
  /-- The lines of the string as they are, indented. -/
  | literal
deriving DecidableEq

/-- Whether a string without quotes would read as something else. -/
def readsOtherwise (s : String) : Bool :=
  match resolve s with
  | .text => isPadded s.toList
  | _ => true

/-- The style of a string. One with a line feed is literal if that can be read back. One that
would read as something else, or as syntax, is quoted: singly if possible. -/
def style (s : String) : Style :=
  let t := traits s.toList
  if s.contains '\n' then
    if t.trailingSpace || t.special then .doubleQuoted else .literal
  else if t.breakSpace || t.special then .doubleQuoted
  else if readsOtherwise s || t.indicated || t.multiline then .singleQuoted
  else .plain

end Yaml

end DocPath
