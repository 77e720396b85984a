import PipeBlocks.Yaml.Cursor

/-! What can be wrong with a YAML text.

A `Problem` is a fault, the place where it was noticed and, where it helps, what
was being read and since where. -/
namespace PipeBlocks.Yaml

inductive Fault where
  | controlCharacter
  -- tokens
  | noToken
  | missingColon
  | entryNotAllowed
  | keyNotAllowed
  | valueNotAllowed
  -- scalars
  | unexpectedEnd
  | unexpectedDocumentMark
  | unknownEscape
  | badHexDigit
  | badEscapedCharacter
  | tabInIndentation
  | tabForIndentation
  | unexpectedColon
  | zeroIndentation
  | trailingText
  -- anchors and tags
  | missingName
  | missingExclamation
  | missingTagEnd
  | missingTagText
  | missingSpaceAfterTag
  | badTagEscape
  | badLeadingByte
  | badTrailingByte
  | undefinedHandle
  | unknownAnchor
  -- directives
  | missingDirectiveName
  | badDirectiveName
  | unknownDirective
  | missingSpace
  | missingVersionPart
  | missingVersionNumber
  | longVersionNumber
  | duplicateVersion
  | unsupportedVersion
  | duplicateHandle
  -- structure
  | missingDocumentStart
  | missingContent
  | missingEntry
  | missingKey
  | missingSequenceEnd
  | missingMappingEnd
deriving DecidableEq, Repr

def Fault.message : Fault → String
  | .controlCharacter => "control characters are not allowed"
  | .noToken => "found character that cannot start any token"
  | .missingColon => "could not find expected ':'"
  | .entryNotAllowed => "block sequence entries are not allowed in this context"
  | .keyNotAllowed => "mapping keys are not allowed in this context"
  | .valueNotAllowed => "mapping values are not allowed in this context"
  | .unexpectedEnd => "found unexpected end of stream"
  | .unexpectedDocumentMark => "found unexpected document indicator"
  | .unknownEscape => "found unknown escape character"
  | .badHexDigit => "did not find expected hexadecimal number"
  | .badEscapedCharacter => "found invalid Unicode character escape code"
  | .tabInIndentation => "found a tab character that violates indentation"
  | .tabForIndentation => "found a tab character where an indentation space is expected"
  | .unexpectedColon => "found unexpected ':'"
  | .zeroIndentation => "found an indentation indicator equal to 0"
  | .trailingText => "did not find expected comment or line break"
  | .missingName => "did not find expected alphabetic or numeric character"
  | .missingExclamation => "did not find expected '!'"
  | .missingTagEnd => "did not find the expected '>'"
  | .missingTagText => "did not find expected tag URI"
  | .missingSpaceAfterTag => "did not find expected whitespace or line break"
  | .badTagEscape => "did not find URI escaped octet"
  | .badLeadingByte => "found an incorrect leading UTF-8 octet"
  | .badTrailingByte => "found an incorrect trailing UTF-8 octet"
  | .undefinedHandle => "found undefined tag handle"
  | .unknownAnchor => "unknown anchor"
  | .missingDirectiveName => "could not find expected directive name"
  | .badDirectiveName => "found unexpected non-alphabetical character"
  | .unknownDirective => "found unknown directive name"
  | .missingSpace => "did not find expected whitespace"
  | .missingVersionPart => "did not find expected digit or '.' character"
  | .missingVersionNumber => "did not find expected version number"
  | .longVersionNumber => "found extremely long version number"
  | .duplicateVersion => "found duplicate %YAML directive"
  | .unsupportedVersion => "found incompatible YAML document"
  | .duplicateHandle => "found duplicate %TAG directive"
  | .missingDocumentStart => "did not find expected <document start>"
  | .missingContent => "did not find expected node content"
  | .missingEntry => "did not find expected '-' indicator"
  | .missingKey => "did not find expected key"
  | .missingSequenceEnd => "did not find expected ',' or ']'"
  | .missingMappingEnd => "did not find expected ',' or '\x7d'"

/-- What was being read when a fault was noticed. -/
inductive Activity where
  | nextToken
  | simpleKey
  | directive
  | versionDirective
  | tagDirective
  | tagDirectiveText
  /-- The handle in a tag directive, and the end of its name. -/
  | directiveHandle
  | directiveHandleEnd
  | anchor
  | alias
  | tag
  | tagText
  | blockScalar
  | quotedScalar
  | escape
  | plainScalar
  | node
  | blockNode
  | flowNode
  | blockCollection
  | blockMapping
  | flowSequence
  | flowMapping
deriving DecidableEq, Repr

def Activity.message : Activity → String
  | .nextToken => "while scanning for the next token"
  | .simpleKey => "while scanning a simple key"
  | .directive => "while scanning a directive"
  | .versionDirective => "while scanning a %YAML directive"
  | .tagDirective => "while scanning a %TAG directive"
  | .tagDirectiveText => "while parsing a %TAG directive"
  | .directiveHandle => "while scanning a tag directive"
  | .directiveHandleEnd => "while parsing a tag directive"
  | .anchor => "while scanning an anchor"
  | .alias => "while scanning an alias"
  | .tag => "while scanning a tag"
  | .tagText => "while parsing a tag"
  | .blockScalar => "while scanning a block scalar"
  | .quotedScalar => "while scanning a quoted scalar"
  | .escape => "while parsing a quoted scalar"
  | .plainScalar => "while scanning a plain scalar"
  | .node => "while parsing a node"
  | .blockNode => "while parsing a block node"
  | .flowNode => "while parsing a flow node"
  | .blockCollection => "while parsing a block collection"
  | .blockMapping => "while parsing a block mapping"
  | .flowSequence => "while parsing a flow sequence"
  | .flowMapping => "while parsing a flow mapping"

inductive Place where
  | mark (m : Mark)
  /-- A number of bytes from the start, for texts that are no YAML at all. -/
  | byte (offset : Nat)
deriving DecidableEq, Repr

structure Problem where
  fault : Fault
  place : Place
  context : Option (Activity × Mark) := none
deriving DecidableEq, Repr

namespace Problem

/-- The byte offset at which the fault was noticed. -/
def index (p : Problem) : Nat :=
  match p.place with
  | .mark m => m.index
  | .byte offset => offset

def ofMark (fault : Fault) (m : Mark) : Problem := { fault, place := .mark m }

def during (activity : Activity) (since : Mark) (fault : Fault) (m : Mark) : Problem :=
  { fault, place := .mark m, context := some (activity, since) }

/-- The place of a fault, said only if it is not where the text begins. -/
def placeMessage : Place → String
  | .mark m => if m.isOrigin then "" else " at " ++ m.describe
  | .byte 0 => ""
  | .byte offset => s!" at position {offset}"

/-- What was being read, with its start if that tells more than the place does. -/
def contextMessage (place : Place) : Option (Activity × Mark) → String
  | none => ""
  | some (activity, since) =>
    let samePlace := match place with
      | .mark m => m.line == since.line && m.column == since.column
      | .byte _ => since.isOrigin
    ", " ++ activity.message ++
      (if since.isOrigin || samePlace then "" else " at " ++ since.describe)

def message (p : Problem) : String :=
  p.fault.message ++ placeMessage p.place ++ contextMessage p.place p.context

end Problem

end PipeBlocks.Yaml
