/-
This file names the lexical units of the markup language and what can be wrong with a text.
-/

import Phrasebook.Yaml.Character

namespace Phrasebook.Yaml

inductive ScalarStyle where
  | plain
  | quoted
  | block
  deriving Repr, DecidableEq

/-- Escapes in a tag name single octets, so a tag need not be text. -/
abbrev Octets := List UInt8

inductive Token where
  | version (major minor : Nat)
  | tagPrefix (handle : String) (octets : Octets)
  | documentStart
  | documentEnd
  | blockSequenceStart
  | blockMappingStart
  | blockEnd
  | flowSequenceStart
  | flowSequenceEnd
  | flowMappingStart
  | flowMappingEnd
  | blockEntry
  | flowEntry
  | key
  | value
  | alias (name : String)
  | anchor (name : String)
  | tag (handle : String) (suffix : Octets)
  | scalar (style : ScalarStyle) (text : String)
  deriving Repr, DecidableEq

/-- A text that holds no document has one of these faults. -/
inductive Fault where
  | forbiddenCharacter
  | unexpectedCharacter
  | unexpectedEntry
  | unexpectedKey
  | unexpectedValue
  | keyWithoutValue
  | unexpectedTab
  | unexpectedColon
  | badBlockHeader
  | badEscape
  | unclosedQuote
  | badAnchor
  | badTag
  | badDirective
  | badNode
  | badCollection
  | unknownTagHandle
  | unknownAlias
  | severalDocuments
  | duplicateKey
  | badTypedScalar
  | numberOutOfRange
  | tooDeep
  | tooManyAliases
  | unfinished
  deriving Repr, DecidableEq

namespace Fault

def message : Fault → String
  | forbiddenCharacter => "control characters are not allowed"
  | unexpectedCharacter => "found a character that cannot start a token"
  | unexpectedEntry => "a sequence entry is not allowed here"
  | unexpectedKey => "a mapping key is not allowed here"
  | unexpectedValue => "a mapping value is not allowed here"
  | keyWithoutValue => "a key has no value"
  | unexpectedTab => "found a tab where indentation is expected"
  | unexpectedColon => "found an unexpected colon"
  | badBlockHeader => "malformed header of a block scalar"
  | badEscape => "unknown escape in a quoted scalar"
  | unclosedQuote => "a quoted scalar has no end"
  | badAnchor => "malformed anchor or alias"
  | badTag => "malformed tag"
  | badDirective => "malformed directive"
  | badNode => "expected a node"
  | badCollection => "malformed collection"
  | unknownTagHandle => "unknown tag handle"
  | unknownAlias => "unknown alias"
  | severalDocuments => "more than one document"
  | duplicateKey => "duplicate mapping key"
  | badTypedScalar => "a scalar does not fit its tag"
  | numberOutOfRange => "an integer is out of range"
  | tooDeep => "collections are nested too deeply"
  | tooManyAliases => "aliases repeat too often"
  | unfinished => "the document is not complete"

end Fault

end Phrasebook.Yaml
