/-
This file holds the tree of a document, before its scalars and aliases are resolved.
-/

import Phrasebook.Yaml.Token

namespace Phrasebook.Yaml

/-- An anchor is known by its number. -/
structure Properties where
  anchor : Option Nat := none
  tag : Option Octets := none
  deriving Repr

def Properties.isEmpty (properties : Properties) : Bool :=
  properties.anchor.isNone && properties.tag.isNone

inductive Node where
  | alias (number : Nat)
  | scalar (properties : Properties) (style : ScalarStyle) (text : String)
  | sequence (properties : Properties) (items : List Node)
  | mapping (properties : Properties) (pairs : List (Node × Node))
  deriving Repr

namespace Node

/-- An absent node is an empty plain scalar. -/
def empty (properties : Properties := {}) : Node :=
  .scalar properties .plain ""

mutual

/-- The number of starts and ends of nodes; a node without children has one. -/
def marks : Node → Nat
  | .alias _ => 1
  | .scalar .. => 1
  | .sequence _ items => marksOfItems items + 2
  | .mapping _ pairs => marksOfPairs pairs + 2

def marksOfItems : List Node → Nat
  | [] => 0
  | item :: rest => marks item + marksOfItems rest

def marksOfPairs : List (Node × Node) → Nat
  | [] => 0
  | (key, value) :: rest => marks key + marks value + marksOfPairs rest

end

def anchor? : Node → Option Nat
  | .alias _ => none
  | .scalar properties .. => properties.anchor
  | .sequence properties _ => properties.anchor
  | .mapping properties _ => properties.anchor

def own (node : Node) : List (Nat × Node) :=
  match node.anchor? with
  | some number => [(number, node)]
  | none => []

mutual

/-- The nodes with an anchor, in the order in which they start. -/
def anchored (node : Node) : List (Nat × Node) :=
  node.own ++ match node with
    | .alias _ => []
    | .scalar .. => []
    | .sequence _ items => anchoredItems items
    | .mapping _ pairs => anchoredPairs pairs

def anchoredItems : List Node → List (Nat × Node)
  | [] => []
  | item :: rest => anchored item ++ anchoredItems rest

def anchoredPairs : List (Node × Node) → List (Nat × Node)
  | [] => []
  | (key, value) :: rest => anchored key ++ anchored value ++ anchoredPairs rest

end

end Node

end Phrasebook.Yaml
