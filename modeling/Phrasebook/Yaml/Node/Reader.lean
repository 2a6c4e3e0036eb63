/-
This file reads the tree of a document from its tokens.
-/

import Phrasebook.Yaml.Node

namespace Phrasebook.Yaml

/-- Where a node stands decides which collections it may be. -/
inductive Place where
  | flow
  | block
  /-- After a key or value indicator a sequence may stand at the indentation of its mapping. -/
  | blockPair
  deriving DecidableEq

/-- What is known before a node is read: the tag prefixes of the document and the names of the
anchors so far, each with its number. -/
structure Scope where
  tagPrefixes : List (String × Octets)
  names : List (String × Nat) := []

namespace Scope

/-- A number counts the distinct names before it. -/
def declare (scope : Scope) (name : String) : Scope × Nat :=
  let number := (scope.names.map Prod.fst).eraseDups.length
  ({ scope with names := (name, number) :: scope.names }, number)

def number? (scope : Scope) (name : String) : Option Nat :=
  scope.names.lookup name

def tag (scope : Scope) (handle : String) (suffix : Octets) : Except Fault Octets :=
  if handle.isEmpty then .ok suffix
  else
    match scope.tagPrefixes.lookup handle with
    | some octets => .ok (octets ++ suffix)
    | none => .error .unknownTagHandle

end Scope

/-- A value read from the front of the tokens. -/
structure Read (α : Type) (tokens : List Token) where
  value : α
  scope : Scope
  rest : List Token
  noLonger : rest.length ≤ tokens.length

namespace Read

def within {α : Type} {inner outer : List Token} (read : Read α inner)
    (noLonger : inner.length ≤ outer.length) : Read α outer :=
  ⟨read.value, read.scope, read.rest, Nat.le_trans read.noLonger noLonger⟩

def map {α β : Type} {tokens : List Token} (change : α → β) (read : Read α tokens) :
    Read β tokens :=
  ⟨change read.value, read.scope, read.rest, read.noLonger⟩

end Read

namespace Node

def readAnchor (scope : Scope) (tokens : List Token) : Read (Option Nat) tokens :=
  match tokens with
  | .anchor name :: rest =>
      let (declared, number) := scope.declare name
      ⟨some number, declared, rest, by simp⟩
  | tokens => ⟨none, scope, tokens, Nat.le_refl _⟩

def readTag (scope : Scope) (tokens : List Token) :
    Except Fault (Read (Option Octets) tokens) :=
  match tokens with
  | .tag handle suffix :: rest => do
      let octets ← scope.tag handle suffix
      return ⟨some octets, scope, rest, by simp⟩
  | tokens => .ok ⟨none, scope, tokens, Nat.le_refl _⟩

/-- An anchor and a tag may come in either order. -/
def readProperties (scope : Scope) (tokens : List Token) :
    Except Fault (Read Properties tokens) := do
  let anchor := readAnchor scope tokens
  let tag ← readTag anchor.scope anchor.rest
  let later := if anchor.value.isSome
    then ⟨none, tag.scope, tag.rest, Nat.le_refl _⟩ else readAnchor tag.scope tag.rest
  return ⟨⟨anchor.value <|> later.value, tag.value⟩, later.scope, later.rest,
    Nat.le_trans later.noLonger (Nat.le_trans tag.noLonger anchor.noLonger)⟩

/-- The tag of a lone exclamation mark says nothing about a scalar. -/
def scalarProperties (properties : Properties) : Properties :=
  if properties.tag == some ['!'.toNat.toUInt8] then { properties with tag := none }
  else properties

def endsBlockItem : Token → Bool
  | .blockEntry | .blockEnd => true
  | _ => false

def endsFlushItem : Token → Bool
  | .blockEntry | .key | .value | .blockEnd => true
  | _ => false

def endsBlockPair : Token → Bool
  | .key | .value | .blockEnd => true
  | _ => false

def endsFlowItemKey : Token → Bool
  | .value | .flowEntry | .flowSequenceEnd => true
  | _ => false

def endsFlowItemValue : Token → Bool
  | .flowEntry | .flowSequenceEnd => true
  | _ => false

def endsFlowPairKey : Token → Bool
  | .value | .flowEntry | .flowMappingEnd => true
  | _ => false

def endsFlowPairValue : Token → Bool
  | .flowEntry | .flowMappingEnd => true
  | _ => false

mutual

/-- Reads what follows the properties of a node. -/
def readContent (place : Place) (properties : Properties) (scope : Scope)
    (tokens : List Token) : Except Fault (Read Node tokens) :=
  match tokens with
  | .scalar style text :: rest =>
      .ok ⟨.scalar (scalarProperties properties) style text, scope, rest, by simp⟩
  | .flowSequenceStart :: rest => do
      let items ← readFlowItems scope rest
      return (items.map (.sequence properties)).within (by simp)
  | .flowMappingStart :: rest => do
      let pairs ← readFlowPairs scope rest
      return (pairs.map (.mapping properties)).within (by simp)
  | .blockSequenceStart :: rest => do
      if place == .flow then throw .badNode
      let items ← readBlockItems scope rest []
      return (items.map (.sequence properties)).within (by simp)
  | .blockMappingStart :: rest => do
      if place == .flow then throw .badNode
      let pairs ← readBlockPairs scope rest []
      return (pairs.map (.mapping properties)).within (by simp)
  | tokens =>
      if place == .blockPair && tokens.head? == some .blockEntry then do
        let items ← readFlushItems scope tokens []
        return items.map (.sequence properties)
      else if properties.isEmpty then .error .badNode
      else .ok ⟨.empty properties, scope, tokens, Nat.le_refl _⟩
termination_by 8 * tokens.length + 1

def read (place : Place) (scope : Scope) (tokens : List Token) :
    Except Fault (Read Node tokens) :=
  match tokens with
  | .alias name :: rest =>
      match scope.number? name with
      | some number => .ok ⟨.alias number, scope, rest, by simp⟩
      | none => .error .unknownAlias
  | tokens => do
      let ⟨properties, declared, content, noLonger⟩ ← readProperties scope tokens
      let node ← readContent place properties declared content
      return node.within noLonger
termination_by 8 * tokens.length + 2

/-- Reads a node unless the next token shows that there is none. -/
def readUnless (ends : Token → Bool) (place : Place) (scope : Scope) (tokens : List Token) :
    Except Fault (Read Node tokens) :=
  if tokens.head?.any ends then .ok ⟨.empty, scope, tokens, Nat.le_refl _⟩
  else read place scope tokens
termination_by 8 * tokens.length + 3

def readBlockItems (scope : Scope) (tokens : List Token) (reversed : List Node) :
    Except Fault (Read (List Node) tokens) :=
  match tokens with
  | .blockEntry :: rest => do
      let ⟨item, declared, further, noLonger⟩ ← readUnless endsBlockItem .block scope rest
      let items ← readBlockItems declared further (item :: reversed)
      return items.within (by simp; omega)
  | .blockEnd :: rest => .ok ⟨reversed.reverse, scope, rest, by simp⟩
  | _ => .error .badCollection
termination_by 8 * tokens.length + 0

/-- A sequence at the indentation of its mapping ends where no entry follows. -/
def readFlushItems (scope : Scope) (tokens : List Token) (reversed : List Node) :
    Except Fault (Read (List Node) tokens) :=
  match tokens with
  | .blockEntry :: rest => do
      let ⟨item, declared, further, noLonger⟩ ← readUnless endsFlushItem .block scope rest
      let items ← readFlushItems declared further (item :: reversed)
      return items.within (by simp; omega)
  | tokens => .ok ⟨reversed.reverse, scope, tokens, Nat.le_refl _⟩
termination_by 8 * tokens.length + 0

/-- Reads the value of a pair if there is a value indicator. -/
def readValue (ends : Token → Bool) (place : Place) (scope : Scope) (tokens : List Token) :
    Except Fault (Read Node tokens) :=
  match tokens with
  | .value :: rest => do
      let value ← readUnless ends place scope rest
      return value.within (by simp)
  | tokens => .ok ⟨.empty, scope, tokens, Nat.le_refl _⟩
termination_by 8 * tokens.length + 4

def readBlockPairs (scope : Scope) (tokens : List Token) (reversed : List (Node × Node)) :
    Except Fault (Read (List (Node × Node)) tokens) :=
  match tokens with
  | .key :: rest => do
      let ⟨key, keyScope, afterKey, keyNoLonger⟩ ← readUnless endsBlockPair .blockPair scope rest
      let ⟨value, valueScope, afterValue, valueNoLonger⟩ ←
        readValue endsBlockPair .blockPair keyScope afterKey
      let pairs ← readBlockPairs valueScope afterValue ((key, value) :: reversed)
      return pairs.within (by simp; omega)
  | .blockEnd :: rest => .ok ⟨reversed.reverse, scope, rest, by simp⟩
  | _ => .error .badCollection
termination_by 8 * tokens.length + 0

/-- A pair inside a flow sequence. Where its key is absent, the token after the key indicator
is passed over. -/
def readFlowItemPair (scope : Scope) (tokens : List Token) :
    Except Fault (Read Node tokens) :=
  match tokens with
  | [] => .error .badNode
  | next :: rest =>
      if endsFlowItemKey next then do
        let ⟨value, declared, further, noLonger⟩ ← readValue endsFlowItemValue .flow scope rest
        return ⟨.mapping {} [(.empty, value)], declared, further, by simp; omega⟩
      else do
        let ⟨key, keyScope, afterKey, keyNoLonger⟩ ← read .flow scope (next :: rest)
        have shorter : afterKey.length ≤ rest.length + 1 := keyNoLonger
        let ⟨value, declared, further, noLonger⟩ ←
          readValue endsFlowItemValue .flow keyScope afterKey
        return ⟨.mapping {} [(key, value)], declared, further, Nat.le_trans noLonger keyNoLonger⟩
termination_by 8 * tokens.length + 5

def readFlowItem (scope : Scope) (tokens : List Token) : Except Fault (Read Node tokens) :=
  match tokens with
  | .key :: rest => do
      let pair ← readFlowItemPair scope rest
      return pair.within (by simp)
  | tokens => read .flow scope tokens
termination_by 8 * tokens.length + 6

/-- Reads the items after the first one; a comma may stand before the end. -/
def readFurtherFlowItems (scope : Scope) (tokens : List Token) (reversed : List Node) :
    Except Fault (Read (List Node) tokens) :=
  match tokens with
  | .flowSequenceEnd :: rest => .ok ⟨reversed.reverse, scope, rest, by simp⟩
  | .flowEntry :: .flowSequenceEnd :: rest => .ok ⟨reversed.reverse, scope, rest, by simp; omega⟩
  | .flowEntry :: rest => do
      let ⟨item, declared, further, noLonger⟩ ← readFlowItem scope rest
      let items ← readFurtherFlowItems declared further (item :: reversed)
      return items.within (by simp; omega)
  | _ => .error .badCollection
termination_by 8 * tokens.length + 0

def readFlowItems (scope : Scope) (tokens : List Token) :
    Except Fault (Read (List Node) tokens) :=
  match tokens with
  | .flowSequenceEnd :: rest => .ok ⟨[], scope, rest, by simp⟩
  | tokens => do
      let ⟨item, declared, further, noLonger⟩ ← readFlowItem scope tokens
      let items ← readFurtherFlowItems declared further [item]
      return items.within noLonger
termination_by 8 * tokens.length + 7

def readFlowPair (scope : Scope) (tokens : List Token) :
    Except Fault (Read (Node × Node) tokens) :=
  match tokens with
  | .key :: rest => do
      let ⟨key, keyScope, afterKey, keyNoLonger⟩ ← readUnless endsFlowPairKey .flow scope rest
      let ⟨value, declared, further, noLonger⟩ ←
        readValue endsFlowPairValue .flow keyScope afterKey
      return ⟨(key, value), declared, further, by simp; omega⟩
  | tokens => do
      let key ← read .flow scope tokens
      return key.map (·, .empty)
termination_by 8 * tokens.length + 6

/-- Reads the pairs after the first one; a comma may stand before the end. -/
def readFurtherFlowPairs (scope : Scope) (tokens : List Token)
    (reversed : List (Node × Node)) : Except Fault (Read (List (Node × Node)) tokens) :=
  match tokens with
  | .flowMappingEnd :: rest => .ok ⟨reversed.reverse, scope, rest, by simp⟩
  | .flowEntry :: .flowMappingEnd :: rest => .ok ⟨reversed.reverse, scope, rest, by simp; omega⟩
  | .flowEntry :: rest => do
      let ⟨pair, declared, further, noLonger⟩ ← readFlowPair scope rest
      let pairs ← readFurtherFlowPairs declared further (pair :: reversed)
      return pairs.within (by simp; omega)
  | _ => .error .badCollection
termination_by 8 * tokens.length + 0

def readFlowPairs (scope : Scope) (tokens : List Token) :
    Except Fault (Read (List (Node × Node)) tokens) :=
  match tokens with
  | .flowMappingEnd :: rest => .ok ⟨[], scope, rest, by simp⟩
  | tokens => do
      let ⟨pair, declared, further, noLonger⟩ ← readFlowPair scope tokens
      let pairs ← readFurtherFlowPairs declared further [pair]
      return pairs.within noLonger
termination_by 8 * tokens.length + 7

end

end Node

end Phrasebook.Yaml
