import DocPath.Yaml.Tag

/-!
# YAML tokens

The indicators and scalars of a text. Where indentation opens or closes a block, a token says so.
-/

namespace DocPath

namespace Yaml

/-- The parts of a YAML text. -/
inductive Token where
  /-- The directive that names the version. -/
  | version (major minor : Nat)
  /-- The directive that gives a short form of tags. -/
  | tagPrefix (handle : String) (text : Tag)
  | documentStart
  | documentEnd
  | blockSequenceStart
  | blockMappingStart
  | blockEnd
  | flowSequenceStart
  | flowSequenceEnd
  | flowMappingStart
  | flowMappingEnd
  | blockEntry
  | flowEntry
  | key
  | value
  | alias (name : String)
  | anchor (name : String)
  | tag (handle : String) (suffix : Tag)
  /-- A scalar, with quotes (or as a block) or without. -/
  | scalar (plain : Bool) (text : String)
deriving DecidableEq, Inhabited

end Yaml

end DocPath
