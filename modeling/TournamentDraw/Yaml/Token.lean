/-!
# Tokens of a YAML text

A YAML text is first cut into tokens: the markers of the stream and its documents,
directives, the starts and ends of block and flow collections, the indicators of entries,
keys and values, anchors, aliases, tags, and scalars with their style. Indentation becomes
explicit: a block collection opens with a start token and closes with a block end.
-/

namespace TournamentDraw.Yaml

/-- How a scalar is written. -/
inductive ScalarStyle where
  | plain
  | singleQuoted
  | doubleQuoted
  | literal
  | folded
  deriving Repr, DecidableEq

/-- What a directive says: the YAML version, a tag handle and its prefix, or something else. -/
inductive DirectiveValue where
  | version (major minor : Nat)
  | tagPrefix (handle pfx : String)
  | other
  deriving Repr, DecidableEq

/-- A token of a YAML text. -/
inductive Token where
  | streamStart
  | streamEnd
  | directive (name : String) (value : DirectiveValue)
  | documentStart
  | documentEnd
  | blockSequenceStart
  | blockMappingStart
  | blockEnd
  | flowSequenceStart
  | flowMappingStart
  | flowSequenceEnd
  | flowMappingEnd
  | blockEntry
  | flowEntry
  | key
  | value
  | alias (name : String)
  | anchor (name : String)
  /-- A tag: its handle (none for a verbatim tag `!<...>`) and its suffix. -/
  | tag (handle : Option String) (suffix : String)
  | scalar (text : String) (style : ScalarStyle)
  deriving Repr, DecidableEq

end TournamentDraw.Yaml
