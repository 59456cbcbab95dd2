import DocPath.Toml.Scalar
import DocPath.Toml.Tables

/-!
# Reading TOML

A document is a list of lines: a key with its value, the header of a table, or nothing, each with
a comment after it or not. Values nest less than eighty deep, and keys have less than eighty parts.

* `Toml.readValue` — a value at the start of a text;
* `Toml.readLine` — one line of a document;
* `Toml.read` — the root table of a document.
-/

namespace DocPath

namespace Toml

/-- Nesting and key parts stay below this. -/
def depthLimit : Nat := 80

/-! ### Keys -/

def isBareChar (c : Char) : Bool := c.isAlphanum || c == '_' || c == '-'

/-- Reads one part of a key: a bare word or a quoted string on one line. -/
def readKeyPart (s : List Char) : Option (String × List Char) :=
  match s with
  | '"' :: rest => (readBasic (s.length + 1) rest).map fun r => (String.ofList r.1, r.2)
  | '\'' :: rest => (readLiteral rest).map fun r => (String.ofList r.1, r.2)
  | s =>
    let word := s.takeWhile isBareChar
    if word.isEmpty then none else some (String.ofList word, s.drop word.length)

/-- Reads a key of at most `n` parts with the blanks around it. -/
def readKeyParts : (n : Nat) → List Char → Option (List String × List Char)
  | 0, _ => none
  | n + 1, s => do
    let (k, rest) ← readKeyPart (skipBlank s)
    match skipBlank rest with
    | '.' :: rest => do
      let (ks, rest) ← readKeyParts n rest
      some (k :: ks, rest)
    | rest => some ([k], rest)

/-- Reads a key with the blanks around it. -/
def readKey (s : List Char) : Option (List String × List Char) := readKeyParts (depthLimit - 1) s

/-! ### Comments -/

/-- The rest after a comment, if one follows. -/
def skipComment : List Char → List Char
  | '#' :: rest => rest.dropWhile isPlain
  | s => s

/-- The rest after the end of a line, where blanks and a comment may stand before it. -/
def endOfLine? (s : List Char) : Option (List Char) :=
  match skipComment (skipBlank s) with
  | [] => some []
  | s => newline? s

/-- The rest after blanks, line ends and comments; a comment ends with its line. -/
def skipFiller : (fuel : Nat) → List Char → Option (List Char)
  | 0, _ => none
  | fuel + 1, s =>
    match skipBlank s with
    | '#' :: rest =>
      match newline? (rest.dropWhile isPlain) with
      | some rest => skipFiller fuel rest
      | none => none
    | s =>
      match newline? s with
      | some rest => skipFiller fuel rest
      | none => some s

/-! ### Values -/

mutual

/-- Reads a value, `room` being how many arrays and braces may still nest. -/
def readValue : (fuel room : Nat) → List Char → Option (Toml × List Char)
  | 0, _, _ => none
  | fuel + 1, room, s =>
    match s with
    | '[' :: rest =>
      match room with
      | 0 => none
      | room + 1 => (readItems fuel room rest).map fun r => (.array r.1, r.2)
    | '\x7b' :: rest =>
      match room with
      | 0 => none
      | room + 1 =>
        match skipBlank rest with
        | '\x7d' :: rest => some (.table .braces [], rest)
        | rest => do
          let (pairs, rest) ← readPairs fuel room rest
          let t ← ofBraces pairs
          some (t, rest)
    | 't' :: rest => (Text.after? ['r', 'u', 'e'] rest).map fun rest => (.flag true, rest)
    | 'f' :: rest => (Text.after? ['a', 'l', 's', 'e'] rest).map fun rest => (.flag false, rest)
    | '"' :: _ => (readString s).map fun r => (.text r.1, r.2)
    | '\'' :: _ => (readString s).map fun r => (.text r.1, r.2)
    | s => (readNumber s).map fun rest => (.other, rest)

/-- Reads the items of an array with its closing bracket; a comma may stand after the last. -/
def readItems : (fuel room : Nat) → List Char → Option (List Toml × List Char)
  | 0, _, _ => none
  | fuel + 1, room, s =>
    match skipFiller (s.length + 1) s with
    | none => none
    | some (']' :: rest) => some ([], rest)
    | some s =>
      match readValue fuel room s with
      | none => none
      | some (v, rest) =>
        match skipFiller (rest.length + 1) rest with
        | some (',' :: rest) => (readItems fuel room rest).map fun r => (v :: r.1, r.2)
        | some (']' :: rest) => some ([v], rest)
        | _ => none

/-- Reads the keys and values between braces with the closing brace, all on one line. -/
def readPairs : (fuel room : Nat) → List Char → Option (List (List String × Toml) × List Char)
  | 0, _, _ => none
  | fuel + 1, room, s =>
    match readKey s with
    | some (path, '=' :: rest) =>
      match readValue fuel room (skipBlank rest) with
      | none => none
      | some (v, rest) =>
        match skipBlank rest with
        | ',' :: rest => (readPairs fuel room rest).map fun r => ((path, v) :: r.1, r.2)
        | '\x7d' :: rest => some ([(path, v)], rest)
        | _ => none
    | _ => none

end

/-! ### Documents -/

/-- Reads one line that is not blank. -/
def readLine (s : List Char) : Option (Statement × List Char) :=
  match s with
  | '[' :: '[' :: rest =>
    match readKey rest with
    | some (path, ']' :: ']' :: rest) => some (.arrayHeader path, rest)
    | _ => none
  | '[' :: rest =>
    match readKey rest with
    | some (path, ']' :: rest) => some (.header path, rest)
    | _ => none
  | s =>
    match readKey s with
    | some (path, '=' :: rest) =>
      (readValue (2 * rest.length + 2) (depthLimit - 1) (skipBlank rest)).map fun r =>
        (.keyValue path r.1, r.2)
    | _ => none

/-- Reads the lines of a document. -/
def readLines : (fuel : Nat) → List Char → Option (List Statement)
  | 0, _ => none
  | fuel + 1, s =>
    match endOfLine? s with
    | some [] => some []
    | some rest => readLines fuel rest
    | none =>
      match readLine (skipBlank s) with
      | none => none
      | some (line, rest) =>
        match endOfLine? rest with
        | none => none
        | some rest => (readLines fuel rest).map fun lines => line :: lines

/-- The text without the mark that may stand before it. -/
def dropMark : List Char → List Char
  | '\uFEFF' :: s => s
  | s => s

/-- The root table of a document. -/
def read (text : String) : Option (Entries Toml) :=
  let s := dropMark text.toList
  (readLines (s.length + 1) s).bind ofStatements

end Toml

end DocPath
