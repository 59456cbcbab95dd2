import DocPath.Yaml.Cursor

/-!
# Scanning scalars

The scalars of a YAML text, each read from its first character on. Line ends inside a scalar are
folded, but in a literal they are kept.

* `Yaml.scanPlain` — a scalar without quotes;
* `Yaml.scanQuoted` — a scalar in single or double quotes;
* `Yaml.scanBlock` — a literal or folded block.
-/

namespace DocPath

namespace Yaml

/-! ### Without quotes -/

/-- Characters that end a plain scalar between brackets or braces. -/
def isFlowIndicator (c : Char) : Bool :=
  c == ',' || c == '[' || c == ']' || c == '\x7b' || c == '\x7d'

/-- Reads up to the end of a word of a plain scalar. Between brackets a colon must not stand right
before another indicator. -/
def plainWord (flow : Bool) : List Char → Option (List Char × List Char)
  | [] => some ([], [])
  | c :: rest =>
    if isSeparator c then some ([], c :: rest)
    else if c == ':' && separated rest then some ([], c :: rest)
    else if flow && c == ':' &&
        (rest.head?.map fun d => isFlowIndicator d || d == '?').getD false then none
    else if flow && isFlowIndicator c then some ([], c :: rest)
    else (plainWord flow rest).map fun r => (c :: r.1, r.2)

/-- What is read of a plain scalar: its characters so far, the place after it and after the gap
that follows, and whether that gap holds a line end. -/
structure PlainScan where
  text : List Char
  cursor : Cursor
  lineEnded : Bool

/-- Reads a plain scalar word by word. Outside brackets it ends where a line is indented less
than `indent`. -/
def scanPlainWords (flow : Bool) (indent : Int) : (fuel : Nat) → (text : List Char) → Cursor.Gap →
    Cursor → Option PlainScan
  | 0, text, gap, c => some ⟨text, c, gap.isLines⟩
  | fuel + 1, text, gap, c =>
    if c.atDocumentMark || c.sees (· == '#') then some ⟨text, c, gap.isLines⟩
    else
      match plainWord flow c.rest with
      | none => none
      | some ([], _) => some ⟨text, c, gap.isLines⟩
      | some (word, rest) =>
        let text := text ++ gap.text ++ word
        let c := c.moveTo rest
        if c.sees fun b => isBlank b || isBreak b then
          match c.gap indent c.rest.length (.blanks []) with
          | none => none
          | some (gap, c) =>
            if !flow && c.column < indent then some ⟨text, c, gap.isLines⟩
            else scanPlainWords flow indent fuel text gap c
        else some ⟨text, c, false⟩

/-- Reads a plain scalar. -/
def scanPlain (flow : Bool) (indent : Int) (c : Cursor) : Option PlainScan :=
  scanPlainWords flow indent (c.rest.length + 1) [] (.blanks []) c

/-! ### In quotes -/

/-- The character that a backslash and one more character stand for. -/
def unescape? : Char → Option Char
  | '0' => some '\x00'
  | 'a' => some '\x07'
  | 'b' => some '\x08'
  | 't' => some '\t'
  | '\t' => some '\t'
  | 'n' => some '\n'
  | 'v' => some '\x0b'
  | 'f' => some '\x0c'
  | 'r' => some '\r'
  | 'e' => some '\x1b'
  | ' ' => some ' '
  | '"' => some '"'
  | '/' => some '/'
  | '\\' => some '\\'
  | 'N' => some '\u0085'
  | '_' => some '\u00a0'
  | 'L' => some '\u2028'
  | 'P' => some '\u2029'
  | _ => none

/-- Reads the code of a character in `n` hexadecimal digits. -/
def readCode (n : Nat) (s : List Char) : Option (Char × List Char) := do
  if s.length < n then none
  else
    let code ← Text.ofRadix? 16 (s.take n)
    let c ← Text.charOfCode? code
    some (c, s.drop n)

/-- Reads what follows a backslash. -/
def readEscape : List Char → Option (Char × List Char)
  | 'x' :: rest => readCode 2 rest
  | 'u' :: rest => readCode 4 rest
  | 'U' :: rest => readCode 8 rest
  | c :: rest => (unescape? c).map fun c => (c, rest)
  | [] => none

/-- Reads the characters between quotes up to a blank, a line end or the closing quote. Holds
with them if a backslash at the end of a line was passed. -/
def quotedWord (single : Bool) : (fuel : Nat) → List Char → Option (List Char × List Char × Bool)
  | 0, _ => none
  | fuel + 1, s =>
    match s with
    | [] => some ([], [], false)
    | c :: rest =>
      if isSeparator c then some ([], s, false)
      else if single then
        if c == '\'' then
          match rest with
          | '\'' :: rest => (quotedWord single fuel rest).map fun r => ('\'' :: r.1, r.2)
          | _ => some ([], s, false)
        else (quotedWord single fuel rest).map fun r => (c :: r.1, r.2)
      else if c == '"' then some ([], s, false)
      else if c == '\\' then
        if (rest.head?.map isBreak).getD false then some ([], rest, true)
        else do
          let (c, rest) ← readEscape rest
          let (cs, r) ← quotedWord single fuel rest
          some (c :: cs, r)
      else (quotedWord single fuel rest).map fun r => (c :: r.1, r.2)

/-- Reads a quoted scalar word by word, with its closing quote. A mark that starts or ends a
document must not stand in it. -/
def scanQuotedWords (single : Bool) : (fuel : Nat) → (text : List Char) → Cursor →
    Option (List Char × Cursor)
  | 0, _, _ => none
  | fuel + 1, text, c =>
    if c.atDocumentMark || c.atEnd then none
    else
      match quotedWord single (c.rest.length + 1) c.rest with
      | none => none
      | some (word, rest, escaped) =>
        let text := text ++ word
        let c := c.moveTo rest
        let c := if escaped then c.endLine.2 else c
        if c.sees (· == (if single then '\'' else '"')) then some (text, c.skip 1)
        else
          match c.gap 0 c.rest.length (if escaped then .lines [] [] else .blanks []) with
          | none => none
          | some (gap, c) => scanQuotedWords single fuel (text ++ gap.text) c

/-- Reads a quoted scalar from its opening quote on. -/
def scanQuoted (single : Bool) (c : Cursor) : Option (List Char × Cursor) :=
  scanQuotedWords single (c.rest.length + 1) [] (c.skip 1)

/-! ### Blocks -/

/-- How the line ends at the end of a block are kept. -/
inductive Chomp where
  /-- None is kept. -/
  | strip
  /-- The first is kept. -/
  | clip
  /-- All are kept. -/
  | keep
deriving DecidableEq

/-- Reads the sign that says how line ends are kept. -/
def readChomp : List Char → Chomp × List Char
  | '+' :: rest => (.keep, rest)
  | '-' :: rest => (.strip, rest)
  | s => (.clip, s)

/-- Reads the digit that gives the indentation; zero is refused. -/
def readIndentation : List Char → Option (Nat × List Char)
  | c :: rest =>
    if c == '0' then none
    else if c.isDigit then some (Text.digitValue c, rest)
    else some (0, c :: rest)
  | [] => some (0, [])

/-- Reads the marks after the bar or the angle of a block, in either order. -/
def readBlockMarks (s : List Char) : Option (Chomp × Nat × List Char) :=
  match readChomp s with
  | (.clip, s) => do
    let (n, s) ← readIndentation s
    if n = 0 then some (.clip, 0, s)
    else
      let (chomp, s) := readChomp s
      some (chomp, n, s)
  | (chomp, s) => do
    let (n, s) ← readIndentation s
    some (chomp, n, s)

/-- Passes empty lines and the indentation after them; an indentation of zero is not known yet.
Gives the line ends passed and the largest column reached. A tab must not stand for indentation. -/
def blockBreaks (indent : Nat) : (fuel widest : Nat) → (breaks : List Char) → Cursor →
    Option (List Char × Nat × Cursor)
  | 0, widest, breaks, c => some (breaks, widest, c)
  | fuel + 1, widest, breaks, c =>
    let width := (c.rest.takeWhile isSpace).length
    let c := c.skip (if indent = 0 then width else min width (indent - c.column))
    let widest := max widest c.column
    if (indent = 0 || c.column < indent) && c.sees (· == '\t') then none
    else if c.sees isBreak then
      let (e, c) := c.endLine
      blockBreaks indent fuel widest (breaks ++ e) c
    else some (breaks, widest, c)

/-- What is read of a block: its characters, the line end after them that is not taken up yet,
and whether the last line starts with a blank. -/
structure BlockScan where
  text : List Char
  ending : List Char
  blankLed : Bool

/-- Reads the lines of a block. Between two lines of a folded one that do not start with a blank,
a line end is read as a space, or dropped if more follow. -/
def scanBlockLines (literal : Bool) (indent : Nat) : (fuel : Nat) → BlockScan →
    (breaks : List Char) → Cursor → Option (BlockScan × List Char × Cursor)
  | 0, b, breaks, c => some (b, breaks, c)
  | fuel + 1, b, breaks, c =>
    if c.column = indent && !c.atEnd then
      let blank := c.sees isBlank
      let joint :=
        if !literal && b.ending == ['\n'] && !b.blankLed && !blank then
          (if breaks.isEmpty then [' '] else [])
        else b.ending
      let line := c.rest.takeWhile fun d => !isBreak d
      let (e, c) := (c.skip line.length).endLine
      match blockBreaks indent c.rest.length 0 [] c with
      | none => none
      | some (breaks', _, c) =>
        scanBlockLines literal indent fuel ⟨b.text ++ joint ++ breaks ++ line, e, blank⟩ breaks' c
    else some (b, breaks, c)

/-- Reads a block scalar from its indicator on, in a block indented by `parent`. -/
def scanBlock (literal : Bool) (parent : Int) (c : Cursor) : Option (List Char × Cursor) := do
  let (chomp, given, rest) ← readBlockMarks (c.rest.drop 1)
  let c := (c.moveTo rest).skipWhile isBlank
  let c := if c.sees (· == '#') then c.skipWhile fun d => !isBreak d else c
  if !c.atEnd && !c.sees isBreak then none
  else
    let c := c.endLine.2
    let indent : Nat := if given = 0 then 0 else if parent ≥ 0 then parent.toNat + given else given
    let (breaks, widest, c) ← blockBreaks indent (c.rest.length + 1) 0 [] c
    let indent := if indent = 0 then max widest (max (parent + 1).toNat 1) else indent
    let (b, breaks, c) ← scanBlockLines literal indent (c.rest.length + 1) ⟨[], [], false⟩ breaks c
    let tail := match chomp with
      | .strip => []
      | .clip => b.ending
      | .keep => b.ending ++ breaks
    some (b.text ++ tail, c)

end Yaml

end DocPath
