import DocPath.Json.Number

/-!
# Reading JSON

A text holds one content with blanks around it. At most 127 containers may nest. The value is the one
that this content stands for: of a repeated key it has the first place and the last value.

* `Json.readString` — the characters of a string after its opening quote;
* `Json.readContent` — a content at the start of a text;
* `Json.read` — the value of a whole text.
-/

namespace DocPath

namespace Json

/-! ### Blanks and words -/

def isBlank (c : Char) : Bool := c == ' ' || c == '\t' || c == '\n' || c == '\r'

def skipBlank (s : List Char) : List Char := s.dropWhile isBlank

/-! ### Strings -/

def isHighSurrogate (n : Nat) : Bool := 0xD800 ≤ n && n < 0xDC00

def isLowSurrogate (n : Nat) : Bool := 0xDC00 ≤ n && n < 0xE000

/-- The character that a pair of surrogates stands for. -/
def ofSurrogates (high low : Nat) : Char :=
  Char.ofNat (0x10000 + (high - 0xD800) * 0x400 + (low - 0xDC00))

/-- The character that a backslash and one more character stand for. -/
def unescape? : Char → Option Char
  | '"' => some '"'
  | '\\' => some '\\'
  | '/' => some '/'
  | 'b' => some '\x08'
  | 'f' => some '\x0c'
  | 'n' => some '\n'
  | 'r' => some '\r'
  | 't' => some '\t'
  | _ => none

/-- Puts a character before what is read after it. -/
def consRead (c : Char) : Option (List Char × List Char) → Option (List Char × List Char) :=
  Option.map fun r => (c :: r.1, r.2)

/-- Reads the characters of a string up to its closing quote. Surrogates must come in pairs, and
control characters must be escaped. -/
def readString : List Char → Option (List Char × List Char)
  | [] => none
  | '"' :: rest => some ([], rest)
  | '\\' :: 'u' :: a :: b :: c :: d :: rest =>
    match Text.ofRadix? 16 [a, b, c, d] with
    | none => none
    | some n =>
      if isHighSurrogate n then
        match rest with
        | '\\' :: 'u' :: a' :: b' :: c' :: d' :: rest' =>
          match Text.ofRadix? 16 [a', b', c', d'] with
          | none => none
          | some low =>
            if isLowSurrogate low then consRead (ofSurrogates n low) (readString rest') else none
        | _ => none
      else if isLowSurrogate n then none
      else consRead (Char.ofNat n) (readString rest)
  | '\\' :: c :: rest =>
    match unescape? c with
    | none => none
    | some c' => consRead c' (readString rest)
  | c :: rest => if c.toNat < 0x20 || c == '\\' then none else consRead c (readString rest)

/-! ### Contents -/

/-- The deepest nesting of containers that is read. -/
def maxDepth : Nat := 127

mutual

/-- Reads a content, `room` being how many containers may still nest and `fuel` bounding the steps. -/
def readContent : (fuel room : Nat) → List Char → Option (Content × List Char)
  | 0, _, _ => none
  | fuel + 1, room, s =>
    match skipBlank s with
    | '"' :: rest => (readString rest).map fun r => (.string (String.ofList r.1), r.2)
    | '[' :: rest =>
      match room with
      | 0 => none
      | room + 1 =>
        match skipBlank rest with
        | ']' :: rest => some (.list [], rest)
        | rest => (readItems fuel room rest).map fun r => (.list r.1, r.2)
    | '\x7b' :: rest =>
      match room with
      | 0 => none
      | room + 1 =>
        match skipBlank rest with
        | '\x7d' :: rest => some (.record [], rest)
        | rest => (readMembers fuel room rest).map fun r => (.record r.1, r.2)
    | 'n' :: rest => (Text.after? ['u', 'l', 'l'] rest).map fun rest => (.nothing, rest)
    | 't' :: rest => (Text.after? ['r', 'u', 'e'] rest).map fun rest => (.bool true, rest)
    | 'f' :: rest => (Text.after? ['a', 'l', 's', 'e'] rest).map fun rest => (.bool false, rest)
    | s => readNumber s

/-- Reads the items of an array from its first item on, with its closing bracket. -/
def readItems : (fuel room : Nat) → List Char → Option (List Content × List Char)
  | 0, _, _ => none
  | fuel + 1, room, s =>
    match readContent fuel room s with
    | none => none
    | some (v, rest) =>
      match skipBlank rest with
      | ',' :: rest => (readItems fuel room rest).map fun r => (v :: r.1, r.2)
      | ']' :: rest => some ([v], rest)
      | _ => none

/-- Reads the members of an object from its first key on, with its closing brace. -/
def readMembers : (fuel room : Nat) → List Char →
    Option (List (String × Content) × List Char)
  | 0, _, _ => none
  | fuel + 1, room, s =>
    match skipBlank s with
    | '"' :: rest =>
      match readString rest with
      | none => none
      | some (k, rest) =>
        match skipBlank rest with
        | ':' :: rest =>
          match readContent fuel room rest with
          | none => none
          | some (v, rest) =>
            match skipBlank rest with
            | ',' :: rest =>
              (readMembers fuel room rest).map fun r => ((String.ofList k, v) :: r.1, r.2)
            | '\x7d' :: rest => some ([(String.ofList k, v)], rest)
            | _ => none
        | _ => none
    | _ => none

end

/-- What a whole text holds. Two steps for each character are enough. -/
def readText (text : String) : Option Content :=
  let s := text.toList
  match readContent (2 * s.length + 2) maxDepth s with
  | some (c, rest) => if (skipBlank rest).isEmpty then some c else none
  | none => none

/-- The value of a whole text. -/
def read (text : String) : Option Value := (readText text).bind Content.value?

end Json

end DocPath
