import PipeBlocks.Yaml.Cursor

/-! The tokens of a YAML text, each with the place where it starts and stops. -/
namespace PipeBlocks.Yaml

/-- How a scalar is written. -/
inductive Style where
  | plain
  | singleQuoted
  | doubleQuoted
  | literal
  | folded
deriving DecidableEq, Repr

/-- A tag as written: a handle that stands for a beginning, and the rest. -/
structure TagName where
  handle : Text
  suffix : Text
deriving DecidableEq, Repr

inductive Lexeme where
  | streamStart
  | streamEnd
  | versionDirective (major minor : Nat)
  | tagDirective (handle stands : Text)
  | documentStart
  | documentEnd
  | blockSequenceStart
  | blockMappingStart
  | blockEnd
  | flowSequenceStart
  | flowSequenceEnd
  | flowMappingStart
  | flowMappingEnd
  | blockEntry
  | flowEntry
  | key
  | value
  | alias (name : Text)
  | anchor (name : Text)
  | tag (name : TagName)
  | scalar (text : Text) (style : Style)
deriving DecidableEq, Repr

structure Token where
  lexeme : Lexeme
  start : Mark
  stop : Mark
deriving DecidableEq, Repr

end PipeBlocks.Yaml
