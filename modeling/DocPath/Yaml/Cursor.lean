import DocPath.Yaml.Style

/-!
# Places in a YAML text

* `Yaml.Cursor` — the rest of a text, its distance in bytes from the start and in characters from
  its line's start;
* `Yaml.Cursor.skip`, `Yaml.Cursor.skipWhile`, `Yaml.Cursor.endLine` — moving on;
* `Yaml.Cursor.gap` — the blanks and line ends between two words of a scalar.
-/

namespace DocPath

namespace Yaml

/-- A place in a text. -/
structure Cursor where
  rest : List Char
  /-- The number of bytes before the place. -/
  index : Nat := 0
  line : Nat := 0
  column : Nat := 0

namespace Cursor

/-- The number of bytes of a text. -/
def byteCount (s : List Char) : Nat := s.foldr (fun c n => c.utf8Size + n) 0

/-- Moves past `n` characters of the same line. -/
def skip (c : Cursor) (n : Nat) : Cursor :=
  { c with
    rest := c.rest.drop n, index := c.index + byteCount (c.rest.take n), column := c.column + n }

/-- Moves past characters of the same line as long as they answer to the test. -/
def skipWhile (c : Cursor) (p : Char → Bool) : Cursor := c.skip (c.rest.takeWhile p).length

/-- Moves to a place further on in the same line, given by the rest of the text there. -/
def moveTo (c : Cursor) (rest : List Char) : Cursor := c.skip (c.rest.length - rest.length)

def peek (c : Cursor) : Option Char := c.rest.head?

/-- Whether the character here answers to the test. -/
def sees (c : Cursor) (p : Char → Bool) : Bool := (c.peek.map p).getD false

def atEnd (c : Cursor) : Bool := c.rest.isEmpty

/-- Moves to the next line and gives the line end passed: a line feed stands for each of the
usual ones, and at the end of the text there is none. -/
def endLine (c : Cursor) : List Char × Cursor :=
  match c.rest with
  | [] => ([], c)
  | '\r' :: '\n' :: rest => (['\n'], ⟨rest, c.index + 2, c.line + 1, 0⟩)
  | b :: rest =>
    (if b == '\u2028' || b == '\u2029' then [b] else ['\n'],
      ⟨rest, c.index + b.utf8Size, c.line + 1, 0⟩)

/-- Whether three equal marks that start or end a document stand here. -/
def atDocumentMark (c : Cursor) : Bool :=
  c.column == 0 &&
    match c.rest with
    | '-' :: '-' :: '-' :: rest => separated rest
    | '.' :: '.' :: '.' :: rest => separated rest
    | _ => false

/-! ### Gaps -/

/-- What stands between two words: blanks in a line, or line ends with the first one apart. -/
inductive Gap where
  | blanks (s : List Char)
  | lines (first more : List Char)

/-- What a gap stands for: one line end is read as a space, and of more the first is dropped. -/
def Gap.text : Gap → List Char
  | .blanks s => s
  | .lines ['\n'] [] => [' ']
  | .lines ['\n'] more => more
  | .lines first more => first ++ more

def Gap.isLines : Gap → Bool
  | .blanks _ => false
  | .lines _ _ => true

/-- Passes blanks and line ends. After a line end, a tab to the left of `indent` is refused. -/
def gap (indent : Int) : (fuel : Nat) → Gap → Cursor → Option (Gap × Cursor)
  | 0, g, c => some (g, c)
  | fuel + 1, g, c =>
    match c.peek with
    | none => some (g, c)
    | some b =>
      if isBlank b then
        match g with
        | .blanks s => gap indent fuel (.blanks (s ++ [b])) (c.skip 1)
        | .lines first more =>
          if b == '\t' && c.column < indent then none
          else gap indent fuel (.lines first more) (c.skip 1)
      else if isBreak b then
        let (e, c) := c.endLine
        match g with
        | .blanks _ => gap indent fuel (.lines e []) c
        | .lines first more => gap indent fuel (.lines first (more ++ e)) c
      else some (g, c)

end Cursor

end Yaml

end DocPath
