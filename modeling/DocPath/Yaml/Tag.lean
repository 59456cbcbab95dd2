/-!
# YAML tags

What a tag says once its short form is written out. A tag is a list of bytes, because its escapes
need not write characters.

* `Yaml.Tag` — the bytes of a tag;
* `Yaml.Tag.core`, `Yaml.Tag.isOwn` — the kinds of the language and those of the user;
* `Yaml.Tag.Handles` — the short forms that a document knows.
-/

namespace DocPath

namespace Yaml

/-- The bytes of a tag. -/
abbrev Tag := List UInt8

namespace Tag

def ofString (s : String) : Tag := s.toUTF8.toList

/-- What is left of written bytes: a tag ends before the first null byte. -/
def upToNull (bytes : List UInt8) : Tag := bytes.takeWhile (· != 0)

/-- The tag of a kind that the language itself defines. -/
def core (kind : String) : Tag := ofString ("tag:yaml.org,2002:" ++ kind)

/-- The exclamation mark alone, which is what the short form of one mark stands for. -/
def lone : Tag := ofString "!"

/-- Whether an exclamation mark is in front, which leaves the kind to the user. -/
def isLocal (t : Tag) : Bool := t.head? == some 0x21

/-- Whether a tag names a kind of the user's own: text follows an exclamation mark, or nothing. -/
def isOwn (t : Tag) : Bool := t.isLocal && (String.fromUTF8? ⟨(t.drop 1).toArray⟩).isSome

/-! ### Short forms -/

/-- Short forms of tags with the bytes that each stands for. -/
abbrev Handles := List (String × Tag)

/-- The short forms that every document knows. -/
def standardHandles : Handles := [("!", lone), ("!!", core "")]

/-- The tag written by a short form and a suffix; without a short form the suffix is the tag. -/
def expand? (handles : Handles) (handle : String) (suffix : Tag) : Option Tag :=
  if handle.isEmpty then some suffix else (handles.lookup handle).map (· ++ suffix)

end Tag

end Yaml

end DocPath
