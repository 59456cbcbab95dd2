import DocPath.Value.Number

/-!
# Writing JSON

Values are written without any blank. NaN, the infinities and `undefined` have no form of their
own and are written as null.

* `Json.writeString`, `Json.writeValue` — the characters of a string and of a value;
* `Json.write` — the text of a value.
-/

namespace DocPath

namespace Json

/-! ### Strings -/

def hexDigit (n : Nat) : Char := (Nat.toDigits 16 n).headD '0'

/-- One character of a string: quotes, backslashes and control characters are escaped. -/
def writeChar (c : Char) : List Char :=
  match c with
  | '"' => ['\\', '"']
  | '\\' => ['\\', '\\']
  | '\x08' => ['\\', 'b']
  | '\x0c' => ['\\', 'f']
  | '\n' => ['\\', 'n']
  | '\r' => ['\\', 'r']
  | '\t' => ['\\', 't']
  | c =>
    if c.toNat < 0x20 then ['\\', 'u', '0', '0', hexDigit (c.toNat / 16), hexDigit (c.toNat % 16)]
    else [c]

/-- A string between quotes. -/
def writeString (s : String) : List Char := '"' :: (s.toList.flatMap writeChar ++ ['"'])

/-! ### Values -/

/-- The text of a float. -/
def writeFloat (x : Float) : List Char :=
  if x.isFinite then (Value.floatText x).toList else "null".toList

mutual

/-- The characters of a value. -/
def writeValue : Value → List Char
  | .null => "null".toList
  | .bool b => (if b then "true" else "false").toList
  | .integer n => (Value.integerText n).toList
  | .float x => writeFloat x
  | .string s => writeString s
  | .sequence items => '[' :: (writeItems items ++ [']'])
  | .mapping m => '\x7b' :: (writeMembers m ++ ['\x7d'])
  | .undefined => "null".toList

/-- The items of an array, parted by commas. -/
def writeItems : List Value → List Char
  | [] => []
  | [v] => writeValue v
  | v :: w :: rest => writeValue v ++ ',' :: writeItems (w :: rest)

/-- The members of an object, parted by commas. -/
def writeMembers : List (String × Value) → List Char
  | [] => []
  | [(k, v)] => writeString k ++ ':' :: writeValue v
  | (k, v) :: e :: rest => writeString k ++ ':' :: (writeValue v ++ ',' :: writeMembers (e :: rest))

end

/-- The text of a value. -/
def write (v : Value) : String := String.ofList (writeValue v)

end Json

end DocPath
