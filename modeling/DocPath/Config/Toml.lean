import DocPath.Config.Basic
import DocPath.ReadError
import DocPath.Toml.Reader

/-!
# Settings as TOML

* `Config.read` — settings from a text; keys that are missing keep their defaults and unknown
  ones are passed over;
* `Config.write` — the text of settings;
* `Config.load` — settings from what is found in the place of the file, with the defaults where
  nothing readable is;
* `Config.filePath` — that place.
-/

namespace DocPath

namespace SelectOneMode

/-- Holds for a value without entries or items, which may stand for a mode without arguments. -/
def isEmptyContainer : Toml → Bool
  | .array [] => true
  | .table _ [] => true
  | _ => false

/-- The mode that a value names: a word, or a table with that word as its one key. -/
def ofToml? : Toml → Option SelectOneMode
  | .text s => ofName? s
  | .table _ [(k, v)] => if isEmptyContainer v then ofName? k else none
  | _ => none

end SelectOneMode

namespace Config

/-- The settings in a table. -/
def ofTable? (table : Entries Toml) : Option Config := do
  let mode ← match Entries.get? table "select_one" with
    | none => some SelectOneMode.strict
    | some v => SelectOneMode.ofToml? v
  let removal ← match Entries.get? table "allow_root_removal" with
    | none => some false
    | some (.flag b) => some b
    | some _ => none
  some ⟨mode, removal⟩

/-- The settings that a text holds. -/
def read (text : String) : Except ReadError Config :=
  match (Toml.read text).bind ofTable? with
  | some c => .ok c
  | none => .error .config

/-- The text of settings. -/
def write (c : Config) : String :=
  "select_one = \"" ++ c.selectOne.name ++ "\"\nallow_root_removal = "
    ++ (if c.allowRootRemoval then "true" else "false") ++ "\n"

/-! ### The file -/

/-- What is found in the place of the file. -/
inductive Source where
  | missing
  /-- Something that cannot be read as a file. -/
  | unreadable
  | bytes (content : ByteArray)

/-- The settings found; anything but a readable file of settings gives the defaults. -/
def load : Source → Config
  | .missing | .unreadable => {}
  | .bytes content =>
    match String.fromUTF8? content with
    | none => {}
    | some text =>
      match read text with
      | .ok c => c
      | .error _ => {}

/-- The place of the file under a home directory. -/
def filePath (home : String) : String :=
  (if home.endsWith "/" then home else home ++ "/") ++ ".config/navpath/config.toml"

end Config

end DocPath
