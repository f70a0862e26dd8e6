import ScriptTree.Yaml.Tag

/-!
# Tokens

The pieces a document is made of. Indentation has become explicit: a block collection starts and
ends with a token of its own, and every key of a mapping is announced before it stands.
-/

namespace ScriptTree.Yaml

inductive Style where
  | plain | singleQuoted | doubleQuoted | literal | folded
deriving DecidableEq, Repr

namespace Token

/-- What a token is. -/
inductive Kind where
  | textEnd
  | version (major minor : Nat)
  | abbreviation (handle : List Char) (meaning : Tag)
  | documentStart
  | documentEnd
  | blockSequenceStart
  | blockMappingStart
  | blockEnd
  | flowSequenceStart
  | flowSequenceEnd
  | flowMappingStart
  | flowMappingEnd
  | blockEntry
  | flowEntry
  | key
  | value
  /-- An alias. -/
  | reference (name : String)
  | anchor (name : String)
  | tag (written : Tag.Written)
  | scalar (style : Style) (text : String)
deriving DecidableEq, Repr

end Token

structure Token where
  kind : Token.Kind
  mark : Mark
deriving DecidableEq, Repr

end ScriptTree.Yaml
