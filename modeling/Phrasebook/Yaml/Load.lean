/-
This file resolves the scalars, tags and aliases of a document, and with that stands for what the
package for YAML gives to its caller. Of all this the theory of catalogs uses only that the keys of
a mapping are apart.
-/

import Phrasebook.Yaml.Document
import Phrasebook.Yaml.Value

namespace Phrasebook.Yaml

namespace Value

def null? (text : String) : Option Value :=
  if ["~", "null", "Null", "NULL"].contains text then some .null else none

def bool? (text : String) : Option Value :=
  if ["true", "True", "TRUE"].contains text then some (.bool true)
  else if ["false", "False", "FALSE"].contains text then some (.bool false)
  else none

/-- The value of a plain scalar without a tag. -/
def ofPlain (text : String) : Except Fault Value :=
  if text.isEmpty then .ok .null
  else
    match null? text <|> bool? text with
    | some value => .ok value
    | none =>
        let characters := text.toList
        match Number.readInteger characters with
        | .value value => .ok (.number (.integer value))
        | .outOfRange => .error .numberOutOfRange
        | .notInteger =>
            if Number.isPaddedZero characters then .ok (.string text)
            else
              match Number.readFloat? characters with
              | some float => .ok (.number float)
              | none => .ok (.string text)

def expect (value : Option Value) : Except Fault Value :=
  match value with
  | some value => .ok value
  | none => .error .badTypedScalar

def ofTypedInteger (text : String) : Except Fault Value :=
  match Number.readInteger text.toList with
  | .value value => .ok (.number (.integer value))
  | _ => .error .badTypedScalar

/-- The value of a scalar whose tag names a type of the standard. -/
def ofTyped? (tag : Octets) (text : String) : Option (Except Fault Value) :=
  let named (name : String) : Bool := tag == ("tag:yaml.org,2002:" ++ name).toUTF8.toList
  if named "bool" then some (expect (bool? text))
  else if named "int" then some (ofTypedInteger text)
  else if named "float" then some (expect ((Number.readFloat? text.toList).map .number))
  else if named "null" then some (expect (null? text))
  else none

/-- Tags of the application start with an exclamation mark, which is no part of their name. -/
def dropMark : Octets → Octets
  | first :: second :: rest =>
      if first == '!'.toNat.toUInt8 then second :: rest else first :: second :: rest
  | tag => tag

/-- The name of a tag of the application. -/
def tagName? (tag : Octets) : Option String :=
  if tag.head? == some '!'.toNat.toUInt8 then
    (String.fromUTF8? (dropMark tag).toByteArray).map fun name =>
      String.ofList (match name.toList with
        | '!' :: next :: rest => next :: rest
        | characters => characters)
  else none

/-- The value of a scalar. Its tag counts only where it has not been read already. -/
def ofScalar (tagRead : Bool) (tag : Option Octets) (style : ScalarStyle) (text : String) :
    Except Fault Value :=
  match if tagRead then none else tag with
  | none => if style == .plain then ofPlain text else .ok (.string text)
  | some octets =>
      match ofTyped? octets text with
      | some value => value
      | none =>
          if style == .plain && octets.head? == some '!'.toNat.toUInt8 then ofPlain text
          else .ok (.string text)

/-- Loading counts how many aliases may still be followed. -/
abbrev Loading := StateT Nat (Except Fault)

/-- An alias stands for the last node of its number. -/
def follow (anchored : List (Nat × Node)) (number : Nat) : Loading Node := do
  match ← get with
  | 0 => throw .tooManyAliases
  | count + 1 => set count
  match anchored.lookup number with
  | some node => return node
  | none => throw .unknownAlias

/-- The node to load and whether its tag has been read; an alias has no tag of its own. -/
def resolve (anchored : List (Nat × Node)) (tagRead : Bool) : Node → Loading (Node × Bool)
  | .alias anchor => return (← follow anchored anchor, false)
  | node => return (node, tagRead)

/-- The name of a tag that counts. -/
def pendingTag? (tagRead : Bool) (properties : Properties) : Option String :=
  if tagRead then none else properties.tag >>= tagName?

def loadScalar (tagRead : Bool) (properties : Properties) (style : ScalarStyle)
    (text : String) : Loading Value :=
  match pendingTag? tagRead properties with
  | some name => return .tagged name (← ofScalar true properties.tag style text)
  | none => ofScalar tagRead properties.tag style text

/-- Loads a pair after those already loaded, the latest first. No key may come twice. -/
def loadPair (loadKey loadValue : Node → Loading Value) (loaded : List (Value × Value))
    (pair : Node × Node) : Loading (List (Value × Value)) := do
  let key ← loadKey pair.1
  if loaded.any fun other => other.1.same key then
    throw .duplicateKey
  else
    let value ← loadValue pair.2
    return (key, value) :: loaded

/-- Loads a node that is no alias with a way to load the nodes inside it, which is absent where
no collection may be nested. In a tagged mapping the tags of the keys do not count. -/
def loadTarget (inner? : Option (Bool → Node → Loading Value)) (tagRead : Bool) :
    Node → Loading Value
  | .alias _ => throw .unknownAlias
  | .scalar properties style text => loadScalar tagRead properties style text
  | .sequence properties items =>
      match inner? with
      | none => throw .tooDeep
      | some inner => do
          let items ← items.mapM (inner false)
          return ((pendingTag? tagRead properties).elim id .tagged) (.sequence items)
  | .mapping properties pairs =>
      match inner? with
      | none => throw .tooDeep
      | some inner => do
          let name := pendingTag? tagRead properties
          let pairs ← pairs.foldlM (loadPair (inner (tagRead || name.isSome)) (inner false)) []
          return (name.elim id .tagged) (.mapping pairs.reverse)

/-- Loads a node in which collections may be nested `depth` deep. -/
def ofNode (anchored : List (Nat × Node)) : Nat → Bool → Node → Loading Value
  | 0, tagRead, node => do
      let (target, tagRead) ← resolve anchored tagRead node
      loadTarget none tagRead target
  | depth + 1, tagRead, node => do
      let (target, tagRead) ← resolve anchored tagRead node
      loadTarget (some (ofNode anchored depth)) tagRead target

/-- Collections may be nested this deep. -/
def depthLimit : Nat := 128

/-- A node may be visited through aliases this often on average. -/
def aliasLimit : Nat := 100

/-- Loads the value of a text with at most one document; without one it is null. -/
def load (text : String) : Except Fault Value := do
  match ← Document.ofText text.toList with
  | none => return .null
  | some root =>
      let budget := aliasLimit * root.marks
      let (value, _) ← (ofNode root.anchored.reverse depthLimit false root).run budget
      return value

end Value

end Phrasebook.Yaml
