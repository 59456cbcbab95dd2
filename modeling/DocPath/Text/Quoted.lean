import DocPath.Text.Unprintable

/-!
# Quoted text

* `Text.quote` — a string between double quotes, everything that does not print escaped;
* `Text.bracket` — items between brackets, parted by a comma and a space.
-/

namespace DocPath

namespace Text

/-- The items between brackets. -/
def bracket (items : List String) : String := "[" ++ ", ".intercalate items ++ "]"

/-- A number in hexadecimal with lower-case digits and no leading zero. -/
def hex (n : Nat) : String := String.ofList (Nat.toDigits 16 n)

/-- One character of a quoted string. -/
def quoteChar (c : Char) : String :=
  match c with
  | '"' => "\\\""
  | '\\' => "\\\\"
  | '\n' => "\\n"
  | '\r' => "\\r"
  | '\t' => "\\t"
  | '\x00' => "\\0"
  | c => if isUnprintable c then "\\u\x7b" ++ hex c.toNat ++ "\x7d" else c.toString

/-- The string in double quotes. -/
def quote (s : String) : String := "\"" ++ String.join (s.toList.map quoteChar) ++ "\""

end Text

end DocPath
