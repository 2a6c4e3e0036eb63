/-
This file splits a text into tokens. A colon can turn an earlier token into a key, so the token
that may become a key is remembered until its line ends.
-/

import Phrasebook.Yaml.Token.Plain
import Phrasebook.Yaml.Token.Quoted
import Phrasebook.Yaml.Token.Block
import Phrasebook.Yaml.Token.Property

namespace Phrasebook.Yaml

/-- The token at this number may turn out to start a key. -/
structure PossibleKey where
  /-- A key must follow because the token stands at the indentation of a block mapping. -/
  required : Bool
  number : Nat
  position : Position

structure Lexer where
  cursor : Cursor
  tokens : Array Token := #[]
  /-- The columns of the open block collections, innermost first. -/
  indents : List Nat := []
  possibleKey : Option PossibleKey := none
  /-- The possible keys outside each open flow collection, innermost first. -/
  outerKeys : List (Option PossibleKey) := []
  keyAllowed : Bool := true

namespace Lexer

def inFlow (lexer : Lexer) : Bool :=
  !lexer.outerKeys.isEmpty

def column (lexer : Lexer) : Nat :=
  lexer.cursor.position.column

def emit (lexer : Lexer) (token : Token) : Lexer :=
  { lexer with tokens := lexer.tokens.push token }

def skip (lexer : Lexer) (count : Nat) : Lexer :=
  { lexer with cursor := lexer.cursor.drop count }

/-- Reads blanks, comments and line breaks before a token. Outside flow collections a new line
may start a key, and a tab may not stand where a key may. -/
def skipSpacing (inFlow : Bool) (keyAllowed inComment : Bool) (position : Position) :
    List Char → Cursor × Bool
  | [] => (⟨[], position⟩, keyAllowed)
  | character :: rest =>
      if isBreak character then
        skipSpacing inFlow (keyAllowed || !inFlow) false position.nextLine rest
      else if inComment then
        skipSpacing inFlow keyAllowed true position.next rest
      else if position.column == 0 && character == '\ufeff' then
        skipSpacing inFlow keyAllowed false position.next rest
      else if character == ' ' || (character == '\t' && (inFlow || !keyAllowed)) then
        skipSpacing inFlow keyAllowed false position.next rest
      else if character == '#' then
        skipSpacing inFlow keyAllowed true position.next rest
      else
        (⟨character :: rest, position⟩, keyAllowed)

def toNextToken (lexer : Lexer) : Lexer :=
  let (cursor, keyAllowed) := skipSpacing lexer.inFlow lexer.keyAllowed false
    lexer.cursor.position lexer.cursor.rest
  { lexer with cursor, keyAllowed }

/-- A key ends on its line and has at most 1024 characters. -/
def isStale (position : Position) (key : PossibleKey) : Bool :=
  key.position.line < position.line || key.position.index + 1024 < position.index

/-- Forgets a possible key. -/
def dropKey (key : Option PossibleKey) : Except Fault (Option PossibleKey) :=
  match key with
  | some possible => if possible.required then .error .keyWithoutValue else .ok none
  | none => .ok none

def dropStaleKey (position : Position) (key : Option PossibleKey) :
    Except Fault (Option PossibleKey) :=
  if key.any (isStale position) then dropKey key else .ok key

def dropStaleKeys (lexer : Lexer) : Except Fault Lexer := do
  let possibleKey ← dropStaleKey lexer.cursor.position lexer.possibleKey
  let outerKeys ← lexer.outerKeys.mapM (dropStaleKey lexer.cursor.position)
  return { lexer with possibleKey, outerKeys }

def removeKey (lexer : Lexer) : Except Fault Lexer := do
  let possibleKey ← dropKey lexer.possibleKey
  return { lexer with possibleKey }

/-- Remembers that the next token may start a key. -/
def saveKey (lexer : Lexer) : Except Fault Lexer := do
  if !lexer.keyAllowed then
    return lexer
  let required := !lexer.inFlow && lexer.indents.head? == some lexer.column
  let removed ← lexer.removeKey
  return { removed with
    possibleKey := some ⟨required, lexer.tokens.size, lexer.cursor.position⟩ }

/-- Closes the block collections whose column satisfies the test. -/
def closeWhile (lexer : Lexer) (test : Nat → Bool) : Lexer :=
  if lexer.inFlow then lexer
  else
    { lexer with
      tokens := lexer.tokens ++ (lexer.indents.takeWhile test).map fun _ => Token.blockEnd
      indents := lexer.indents.dropWhile test }

def closeDeeper (lexer : Lexer) : Lexer :=
  lexer.closeWhile (lexer.column < ·)

def closeAll (lexer : Lexer) : Lexer :=
  lexer.closeWhile fun _ => true

/-- Opens a block collection at the column if that is deeper than the innermost one. Its token
goes before the token of the given number. -/
def openBlock (lexer : Lexer) (column number : Nat) (token : Token) : Lexer :=
  if lexer.inFlow || lexer.indents.head?.any (column ≤ ·) then lexer
  else
    { lexer with
      tokens := lexer.tokens.insertIdxIfInBounds number token
      indents := column :: lexer.indents }

def directive (lexer : Lexer) : Except Fault Lexer := do
  let closed ← lexer.closeAll.removeKey
  let (token, cursor) ← Property.directive closed.cursor
  return { closed.emit token with cursor, keyAllowed := false }

def documentMark (lexer : Lexer) (token : Token) : Except Fault Lexer := do
  let closed ← lexer.closeAll.removeKey
  return { (closed.emit token).skip 3 with keyAllowed := false }

def flowStart (lexer : Lexer) (token : Token) : Except Fault Lexer := do
  let saved ← lexer.saveKey
  return { (saved.emit token).skip 1 with
    possibleKey := none
    outerKeys := saved.possibleKey :: saved.outerKeys
    keyAllowed := true }

def flowEnd (lexer : Lexer) (token : Token) : Except Fault Lexer := do
  let removed ← lexer.removeKey
  let closed := match removed.outerKeys with
    | key :: outerKeys => { removed with possibleKey := key, outerKeys }
    | [] => removed
  return { (closed.emit token).skip 1 with keyAllowed := false }

def flowEntry (lexer : Lexer) : Except Fault Lexer := do
  let removed ← lexer.removeKey
  return { (removed.emit .flowEntry).skip 1 with keyAllowed := true }

def blockEntry (lexer : Lexer) : Except Fault Lexer := do
  if !lexer.inFlow && !lexer.keyAllowed then
    throw .unexpectedEntry
  let opened := lexer.openBlock lexer.column lexer.tokens.size .blockSequenceStart
  let removed ← opened.removeKey
  return { (removed.emit .blockEntry).skip 1 with keyAllowed := true }

def key (lexer : Lexer) : Except Fault Lexer := do
  if !lexer.inFlow && !lexer.keyAllowed then
    throw .unexpectedKey
  let opened := lexer.openBlock lexer.column lexer.tokens.size .blockMappingStart
  let removed ← opened.removeKey
  return { (removed.emit .key).skip 1 with keyAllowed := !lexer.inFlow }

def value (lexer : Lexer) : Except Fault Lexer := do
  match lexer.possibleKey with
  | some possible =>
      let keyed := { lexer with
        tokens := lexer.tokens.insertIdxIfInBounds possible.number .key }
      let opened :=
        keyed.openBlock possible.position.column possible.number .blockMappingStart
      return { (opened.emit .value).skip 1 with possibleKey := none, keyAllowed := false }
  | none =>
      if !lexer.inFlow && !lexer.keyAllowed then
        throw .unexpectedValue
      let opened := lexer.openBlock lexer.column lexer.tokens.size .blockMappingStart
      return { (opened.emit .value).skip 1 with keyAllowed := !lexer.inFlow }

def named (lexer : Lexer) (token : String → Token) : Except Fault Lexer := do
  let saved ← lexer.saveKey
  let (name, cursor) ← Property.name (saved.cursor.drop 1)
  return { saved.emit (token name) with cursor, keyAllowed := false }

def tag (lexer : Lexer) : Except Fault Lexer := do
  let saved ← lexer.saveKey
  let (token, cursor) ← Property.tag saved.inFlow saved.cursor
  return { saved.emit token with cursor, keyAllowed := false }

def blockScalar (lexer : Lexer) (kind : Block.Kind) : Except Fault Lexer := do
  let removed ← lexer.removeKey
  let reading ← Block.scan kind removed.indents.head? (removed.cursor.drop 1)
  return { removed.emit (.scalar .block (String.ofList reading.text)) with
    cursor := reading.rest, keyAllowed := true }

def quotedScalar (lexer : Lexer) (quote : Quoted.Quote) : Except Fault Lexer := do
  let saved ← lexer.saveKey
  let reading ← Quoted.scan quote (saved.cursor.drop 1)
  return { saved.emit (.scalar .quoted (String.ofList reading.text)) with
    cursor := reading.rest, keyAllowed := false }

def plainScalar (lexer : Lexer) : Except Fault Lexer := do
  let saved ← lexer.saveKey
  let context : Plain.Context :=
    ⟨saved.inFlow, (saved.indents.head?.map (· + 1)).getD 0⟩
  let reading ← Plain.scan context saved.cursor
  return { saved.emit (.scalar .plain (String.ofList reading.text)) with
    cursor := reading.rest, keyAllowed := reading.crossesLine }

/-- A plain scalar may start with this character whatever follows. -/
def startsPlain (character : Char) : Bool :=
  !isSpacing character && !"-?:,[]\x7b\x7d#&*!|>'\"%@\x60".toList.contains character

/-- Reads the token at the cursor, which starts with `character`. -/
def token (lexer : Lexer) (character : Char) (rest : List Char) : Except Fault Lexer :=
  let text := character :: rest
  let standsAlone := atSpacing rest
  if lexer.column == 0 && character == '%' then lexer.directive
  else if lexer.column == 0 && atSeparator '-' text then lexer.documentMark .documentStart
  else if lexer.column == 0 && atSeparator '.' text then lexer.documentMark .documentEnd
  else if character == '[' then lexer.flowStart .flowSequenceStart
  else if character == '\x7b' then lexer.flowStart .flowMappingStart
  else if character == ']' then lexer.flowEnd .flowSequenceEnd
  else if character == '\x7d' then lexer.flowEnd .flowMappingEnd
  else if character == ',' then lexer.flowEntry
  else if character == '-' && standsAlone then lexer.blockEntry
  else if character == '?' && (lexer.inFlow || standsAlone) then lexer.key
  else if character == ':' && (lexer.inFlow || standsAlone) then lexer.value
  else if character == '*' then lexer.named .alias
  else if character == '&' then lexer.named .anchor
  else if character == '!' then lexer.tag
  else if character == '|' && !lexer.inFlow then lexer.blockScalar .literal
  else if character == '>' && !lexer.inFlow then lexer.blockScalar .folded
  else if character == '\'' then lexer.quotedScalar .single
  else if character == '"' then lexer.quotedScalar .double
  else if startsPlain character || character == '-' || character == '?' || character == ':' then
    lexer.plainScalar
  else .error .unexpectedCharacter

/-- The end of the text closes every block collection. -/
def finish (lexer : Lexer) : Except Fault (Array Token) := do
  let closed ← lexer.closeAll.removeKey
  return closed.tokens

/-- Reads tokens to the end of the text; each takes at least one character, so a count of one
more than the characters is enough. -/
def run : Nat → Lexer → Except Fault (Array Token)
  | 0, _ => .error .unfinished
  | count + 1, lexer => do
      let ready ← lexer.toNextToken.dropStaleKeys
      match ready.cursor.rest with
      | [] => ready.finish
      | character :: rest => run count (← ready.closeDeeper.token character rest)

end Lexer

/-- Splits a text into tokens. -/
def Token.ofText (text : List Char) : Except Fault (List Token) := do
  if !text.all isAllowed then
    throw .forbiddenCharacter
  let unified := unifyBreaks text
  let tokens ← Lexer.run (unified.length + 1) { cursor := ⟨unified, {}⟩ }
  return tokens.toList

end Phrasebook.Yaml
