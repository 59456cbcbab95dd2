import DocPath.Yaml.Token.Basic
import DocPath.Yaml.Token.Scalar

/-!
# Scanning tokens

A text is split into tokens from left to right. A token that may turn out to be a key is
remembered; when a colon follows on the same line, a key token is put before it. Outside brackets
the columns of keys and dashes open and close blocks.

* `Yaml.Lexer` — what is known at a place of the text;
* `Yaml.Lexer.next` — scans one token with what goes before it;
* `Yaml.tokens` — the tokens of a text.
-/

namespace DocPath

namespace Yaml

/-- A place where a key may have begun. -/
structure PossibleKey where
  /-- Outside brackets, at the column of the block, there must be a key. -/
  required : Bool
  /-- How many tokens precede it. -/
  position : Nat
  index : Nat
  line : Nat
  column : Nat

/-- What is known at a place of the text. -/
structure Lexer where
  cursor : Cursor
  /-- The tokens so far, the last one first. -/
  newestFirst : List Token := []
  /-- The column of the innermost block, or -1 outside all blocks, and those around it. -/
  indent : Int := -1
  indents : List Int := []
  /-- Whether a key may begin here. -/
  keyAllowed : Bool := true
  /-- The possible key of each open bracket, the innermost first, and of the block around them. -/
  keys : List (Option PossibleKey) := [none]

namespace Lexer

/-- Whether a bracket or brace is open. -/
def inFlow (l : Lexer) : Bool := l.keys.length > 1

def emit (l : Lexer) (t : Token) : Lexer := { l with newestFirst := t :: l.newestFirst }

/-- Puts a token after the first `position` ones. -/
def emitAt (l : Lexer) (position : Nat) (t : Token) : Lexer :=
  { l with newestFirst := l.newestFirst.insertIdx (l.newestFirst.length - position) t }

/-- Moves past `n` characters. -/
def skip (l : Lexer) (n : Nat) : Lexer := { l with cursor := l.cursor.skip n }

def allowKey (l : Lexer) (allowed : Bool) : Lexer := { l with keyAllowed := allowed }

/-! ### Blocks -/

/-- Closes the blocks to the right of `column`. -/
def closeBlocks (l : Lexer) (column : Int) : Lexer :=
  if l.inFlow then l
  else go l.indents l
where
  /-- Leaves one block after the other. -/
  go : List Int → Lexer → Lexer
    | [], l => l
    | outer :: rest, l =>
      if l.indent > column then go rest { l.emit .blockEnd with indent := outer, indents := rest }
      else l

/-- Opens a block at `column` if it lies to the right of the innermost one, its token coming after
the first `position` ones. -/
def openBlock (l : Lexer) (column : Nat) (position : Nat) (t : Token) : Lexer :=
  if !l.inFlow && l.indent < column then
    { l.emitAt position t with indent := column, indents := l.indent :: l.indents }
  else l

/-- How many tokens there are. -/
def count (l : Lexer) : Nat := l.newestFirst.length

/-! ### Possible keys -/

/-- The possible key that has not gone stale: it stands on this line and at most 1024 bytes back.
A required one that has gone stale is an error. -/
def freshKey? (l : Lexer) : Option (Option PossibleKey) :=
  match l.keys with
  | some k :: _ =>
    if k.line < l.cursor.line ∨ k.index + 1024 < l.cursor.index then
      (if k.required then none else some none)
    else some (some k)
  | _ => some none

/-- Forgets the possible key; a required one must not be forgotten. -/
def dropKey (l : Lexer) : Option Lexer :=
  match l.keys with
  | some k :: outer => if k.required then none else some { l with keys := none :: outer }
  | _ => some l

/-- Remembers that a key may begin here. -/
def markKey (l : Lexer) : Option Lexer :=
  if l.keyAllowed then do
    let l ← l.dropKey
    let c := l.cursor
    let required := !l.inFlow && l.indent == (c.column : Int)
    some { l with keys := some ⟨required, l.count, c.index, c.line, c.column⟩ :: l.keys.drop 1 }
  else some l

/-! ### Blanks -/

/-- Moves to the next token, past blanks, comments and line ends. A tab may stand where no key may
begin and between brackets, and a byte order mark at the start of a line. -/
def skipFiller : (fuel : Nat) → Lexer → Lexer
  | 0, l => l
  | fuel + 1, l =>
    let c := l.cursor
    let c := if c.column == 0 && c.sees (· == '\uFEFF') then c.skip 1 else c
    let tabs := l.inFlow || !l.keyAllowed
    let c := c.skipWhile fun d => d == ' ' || (tabs && d == '\t')
    let c := if c.sees (· == '#') then c.skipWhile fun d => !isBreak d else c
    if c.sees isBreak then
      skipFiller fuel { l with cursor := c.endLine.2, keyAllowed := l.keyAllowed || !l.inFlow }
    else { l with cursor := c }

/-! ### Indicators -/

/-- A mark that starts or ends a document. -/
def documentMark (l : Lexer) (t : Token) : Option Lexer := do
  let l ← (l.closeBlocks (-1)).dropKey
  some (((l.allowKey false).skip 3).emit t)

/-- An opening bracket or brace. -/
def openFlow (l : Lexer) (t : Token) : Option Lexer := do
  let l ← l.markKey
  some ((({ l with keys := none :: l.keys }.allowKey true).skip 1).emit t)

/-- A closing bracket or brace. -/
def closeFlow (l : Lexer) (t : Token) : Option Lexer := do
  let l ← l.dropKey
  let keys := if l.inFlow then l.keys.drop 1 else l.keys
  some ((({ l with keys := keys }.allowKey false).skip 1).emit t)

/-- A comma between brackets. -/
def flowComma (l : Lexer) : Option Lexer := do
  let l ← l.dropKey
  some (((l.allowKey true).skip 1).emit .flowEntry)

/-- The dash of an item. -/
def dash (l : Lexer) : Option Lexer :=
  if !l.inFlow && !l.keyAllowed then none
  else do
    let l ← (l.openBlock l.cursor.column l.count .blockSequenceStart).dropKey
    some (((l.allowKey true).skip 1).emit .blockEntry)

/-- The question mark before a key. -/
def question (l : Lexer) : Option Lexer :=
  if !l.inFlow && !l.keyAllowed then none
  else do
    let l ← (l.openBlock l.cursor.column l.count .blockMappingStart).dropKey
    some (((l.allowKey (!l.inFlow)).skip 1).emit .key)

/-- The colon before a value. -/
def colon (l : Lexer) : Option Lexer := do
  match ← l.freshKey? with
  | some k =>
    let l := (l.emitAt k.position .key).openBlock k.column k.position .blockMappingStart
    let l := { l with keys := none :: l.keys.drop 1 }
    some (((l.allowKey false).skip 1).emit .value)
  | none =>
    if !l.inFlow && !l.keyAllowed then none
    else
      let l := l.openBlock l.cursor.column l.count .blockMappingStart
      some (((l.allowKey (!l.inFlow)).skip 1).emit .value)

/-! ### Anchors, tags and directives -/

/-- Characters of names. -/
def isWordChar (c : Char) : Bool := c.isAlphanum || c == '_' || c == '-'

/-- The name after an ampersand or a star. -/
def name (l : Lexer) (t : String → Token) : Option Lexer := do
  let l ← l.markKey
  let c := l.cursor.skip 1
  let word := c.rest.takeWhile isWordChar
  let c := c.skip word.length
  let ends := separated c.rest
    || c.sees fun d => ['?', ':', ',', ']', '\x7d', '%', '@', '\x60'].contains d
  if word.isEmpty || !ends then none
  else some ({ l with cursor := c }.allowKey false |>.emit (t (String.ofList word)))

/-- Characters of tags; brackets and commas only between angles. -/
def isTagChar (verbatim : Bool) (c : Char) : Bool :=
  isWordChar c || (";/?:@&=+$.!~*'()%".toList.contains c)
    || (verbatim && (c == ',' || c == '[' || c == ']'))

/-- Reads a byte, written by a percent sign and two digits. -/
def escapedByte : List Char → Option (UInt8 × List Char)
  | '%' :: a :: b :: rest => (Text.ofRadix? 16 [a, b]).map fun n => (UInt8.ofNat n, rest)
  | _ => none

/-- How many bytes follow the first one of a character. -/
def followers? (b : UInt8) : Option Nat :=
  if b < 0x80 then some 0
  else if b &&& 0xe0 == 0xc0 then some 1
  else if b &&& 0xf0 == 0xe0 then some 2
  else if b &&& 0xf8 == 0xf0 then some 3
  else none

/-- Reads `n` escaped bytes that each have the form of a byte within a character. -/
def escapedFollowers : (n : Nat) → List Char → Option (List UInt8 × List Char)
  | 0, s => some ([], s)
  | n + 1, s => do
    let (b, s) ← escapedByte s
    if b &&& 0xc0 == 0x80 then (escapedFollowers n s).map fun r => (b :: r.1, r.2) else none

/-- Reads the escaped bytes of one character. Only their number and their form are looked at. -/
def escapedCharacter (s : List Char) : Option (List UInt8 × List Char) := do
  let (b, s) ← escapedByte s
  let n ← followers? b
  (escapedFollowers n s).map fun r => (b :: r.1, r.2)

/-- Reads the bytes of a tag up to a character that no tag has. -/
def tagText (verbatim : Bool) : (fuel : Nat) → List Char → Option (List UInt8 × List Char)
  | 0, s => some ([], s)
  | fuel + 1, s =>
    match s with
    | [] => some ([], [])
    | c :: rest =>
      if !isTagChar verbatim c then some ([], s)
      else if c == '%' then do
        let (bytes, rest) ← escapedCharacter s
        (tagText verbatim fuel rest).map fun r => (bytes ++ r.1, r.2)
      else (tagText verbatim fuel rest).map fun r => (c.toUInt8 :: r.1, r.2)

/-- Reads a short form of tags: a word between exclamation marks, the second of which may lack. -/
def tagHandle : List Char → Option (List Char × List Char)
  | '!' :: rest =>
    let word := rest.takeWhile isWordChar
    match rest.drop word.length with
    | '!' :: rest => some ('!' :: (word ++ ['!']), rest)
    | rest => some ('!' :: word, rest)
  | _ => none

/-- Reads a tag: between angles, with a short form, or with an exclamation mark alone. -/
def readTag (s : List Char) : Option (Token × List Char) :=
  match s with
  | '!' :: '<' :: rest => do
    let (text, rest) ← tagText true rest.length rest
    match rest with
    | '>' :: rest => if text.isEmpty then none else some (.tag "" (Tag.upToNull text), rest)
    | _ => none
  | s => do
    let (handle, rest) ← tagHandle s
    let (text, rest) ← tagText false rest.length rest
    if handle.length > 1 && handle.getLast? == some '!' then
      if text.isEmpty then none
      else some (.tag (String.ofList handle) (Tag.upToNull text), rest)
    else
      let suffix := Tag.upToNull ((handle.drop 1).map Char.toUInt8 ++ text)
      if suffix.isEmpty then some (.tag "" Tag.lone, rest) else some (.tag "!" suffix, rest)

/-- A tag, which a separator must follow, or a comma between brackets. -/
def tag (l : Lexer) : Option Lexer := do
  let l ← l.markKey
  let (t, rest) ← readTag l.cursor.rest
  if separated rest || (l.inFlow && rest.head? == some ',') then
    some (({ l with cursor := l.cursor.moveTo rest }.allowKey false).emit t)
  else none

/-- Reads the number of a version, of nine digits at most. -/
def versionNumber (s : List Char) : Option (Nat × List Char) :=
  let (digits, rest) := Text.spanDigits s
  if digits.isEmpty || digits.length > 9 then none else some (Text.ofDigits digits, rest)

/-- Reads what a directive says. -/
def readDirective (s : List Char) : Option (Token × List Char) := do
  let word := s.takeWhile isWordChar
  let rest := s.drop word.length
  if !separated rest then none
  else if word == ['Y', 'A', 'M', 'L'] then
    let (major, rest) ← versionNumber (rest.dropWhile isBlank)
    match rest with
    | '.' :: rest =>
      let (minor, rest) ← versionNumber rest
      some (.version major minor, rest)
    | _ => none
  else if word == ['T', 'A', 'G'] then
    let (handle, rest) ← tagHandle (rest.dropWhile isBlank)
    let named := handle.length == 1 || handle.getLast? == some '!'
    if !named || !(rest.head?.map isBlank).getD false then none
    else
      let rest := rest.dropWhile isBlank
      let (text, rest) ← tagText true rest.length rest
      if text.isEmpty || !separated rest then none
      else some (.tagPrefix (String.ofList handle) (Tag.upToNull text), rest)
  else none

/-- A line that starts with a percent sign. -/
def directive (l : Lexer) : Option Lexer := do
  let l ← (l.closeBlocks (-1)).dropKey
  let c := l.cursor.skip 1
  let (t, rest) ← readDirective c.rest
  let c := (c.moveTo rest).skipWhile isBlank
  let c := if c.sees (· == '#') then c.skipWhile fun d => !isBreak d else c
  if !c.atEnd && !c.sees isBreak then none
  else some (({ l with cursor := c.endLine.2 }.allowKey false).emit t)

/-! ### Scalars -/

def plain (l : Lexer) : Option Lexer := do
  let l ← l.markKey
  let s ← scanPlain l.inFlow (l.indent + 1) l.cursor
  let l := { l with cursor := s.cursor }.allowKey s.lineEnded
  some (l.emit (.scalar true (String.ofList s.text)))

def quoted (l : Lexer) (single : Bool) : Option Lexer := do
  let l ← l.markKey
  let (text, c) ← scanQuoted single l.cursor
  some (({ l with cursor := c }.allowKey false).emit (.scalar false (String.ofList text)))

def blockScalar (l : Lexer) (literal : Bool) : Option Lexer := do
  let l ← l.dropKey
  let (text, c) ← scanBlock literal l.indent l.cursor
  some (({ l with cursor := c }.allowKey true).emit (.scalar false (String.ofList text)))

/-! ### Tokens -/

/-- Characters that no plain scalar starts with. -/
def isIndicator (c : Char) : Bool :=
  ['-', '?', ':', ',', '[', ']', '\x7b', '\x7d', '#', '&', '*', '!', '|', '>', '\'', '"', '%', '@',
    '\x60'].contains c

/-- Scans the token that starts here, `rest` being the text after its first character `c`. -/
def token (l : Lexer) (c : Char) (rest : List Char) : Option Lexer :=
  let lone := separated rest
  if l.cursor.column == 0 && c == '%' then l.directive
  else if l.cursor.atDocumentMark then
    l.documentMark (if c == '-' then .documentStart else .documentEnd)
  else if c == '[' then l.openFlow .flowSequenceStart
  else if c == '\x7b' then l.openFlow .flowMappingStart
  else if c == ']' then l.closeFlow .flowSequenceEnd
  else if c == '\x7d' then l.closeFlow .flowMappingEnd
  else if c == ',' then l.flowComma
  else if c == '-' && lone then l.dash
  else if c == '?' && (l.inFlow || lone) then l.question
  else if c == ':' && (l.inFlow || lone) then l.colon
  else if c == '*' then l.name .alias
  else if c == '&' then l.name .anchor
  else if c == '!' then l.tag
  else if c == '|' && !l.inFlow then l.blockScalar true
  else if c == '>' && !l.inFlow then l.blockScalar false
  else if c == '\'' then l.quoted true
  else if c == '"' then l.quoted false
  else if (!isIndicator c && !isSeparator c) || (c == '-' && !(rest.head?.map isBlank).getD false)
      || (!l.inFlow && (c == '?' || c == ':')) then l.plain
  else none

/-- Scans the next token; nothing is left at the end of the text. -/
def next (l : Lexer) : Option Lexer :=
  let l := skipFiller (l.cursor.rest.length + 1) l
  let l := l.closeBlocks l.cursor.column
  match l.cursor.rest with
  | [] => some l
  | c :: rest => l.token c rest

/-- Scans token after token up to the end of the text. -/
def run : (fuel : Nat) → Lexer → Option Lexer
  | 0, l => some l
  | fuel + 1, l => do
    let l ← l.next
    if l.cursor.atEnd then some l else run fuel l

end Lexer

/-- Characters that a text may hold. -/
def isAllowed (c : Char) : Bool :=
  let n := c.toNat
  n == 0x09 || n == 0x0a || n == 0x0d || (0x20 ≤ n && n ≤ 0x7e) || n == 0x85
    || (0xa0 ≤ n && n ≤ 0xfffd) || 0x10000 ≤ n

/-- The tokens of a text; none if it cannot be split into tokens. -/
def tokens (text : String) : Option (List Token) := do
  let s := text.toList
  if s.all isAllowed then
    let l ← Lexer.run (s.length + 1) { cursor := { rest := s } }
    let l ← (l.closeBlocks (-1)).dropKey
    some l.newestFirst.reverse
  else none

end Yaml

end DocPath
