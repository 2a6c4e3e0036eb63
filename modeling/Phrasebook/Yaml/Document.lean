/-
This file reads the single document of a text.
-/

import Phrasebook.Yaml.Node.Reader
import Phrasebook.Yaml.Token.Lexer

namespace Phrasebook.Yaml.Document

def standardPrefixes : List (String × Octets) :=
  [("!", "!".toUTF8.toList), ("!!", "tag:yaml.org,2002:".toUTF8.toList)]

/-- The directives in front of a document. -/
structure Directives where
  hasVersion : Bool := false
  tagPrefixes : List (String × Octets) := []

/-- Only versions 1.1 and 1.2 are known, and no directive may be repeated. -/
def readDirectives (directives : Directives) :
    List Token → Except Fault (Directives × List Token)
  | .version major minor :: rest =>
      if directives.hasVersion || major ≠ 1 || (minor ≠ 1 && minor ≠ 2) then .error .badDirective
      else readDirectives { directives with hasVersion := true } rest
  | .tagPrefix handle octets :: rest =>
      if (directives.tagPrefixes.lookup handle).isSome then .error .badDirective
      else
        readDirectives
          { directives with tagPrefixes := directives.tagPrefixes ++ [(handle, octets)] } rest
  | rest => .ok (directives, rest)

def endsDocument : Token → Bool
  | .version .. | .tagPrefix .. | .documentStart | .documentEnd => true
  | _ => false

/-- Reads the node of a document; after an explicit start it may be absent. -/
def readRoot (tokens : List Token) : Except Fault (Node × List Token) := do
  let (directives, rest) ← readDirectives {} tokens
  let scope : Scope := { tagPrefixes := directives.tagPrefixes ++ standardPrefixes }
  match rest with
  | .documentStart :: content =>
      if content.head?.all endsDocument then
        return (.empty, content)
      let root ← Node.read .block scope content
      return (root.value, root.rest)
  | content =>
      if content.length < tokens.length then throw .badDirective
      let root ← Node.read .block scope content
      return (root.value, root.rest)

/-- Reads the only document, or nothing where there is none. -/
def ofTokens (tokens : List Token) : Except Fault (Option Node) := do
  if tokens.isEmpty then
    return none
  let (root, rest) ← readRoot tokens
  match rest.dropWhile (· == .documentEnd) with
  | [] => return some root
  | _ => throw .severalDocuments

def ofText (text : List Char) : Except Fault (Option Node) := do
  ofTokens (← Token.ofText text)

end Phrasebook.Yaml.Document
