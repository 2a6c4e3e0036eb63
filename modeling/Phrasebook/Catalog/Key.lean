/-
This file reads the key of an entry, which is a name with or without parameters.
-/

import Phrasebook.Catalog.Defect
import Phrasebook.Text.Blank
import Phrasebook.Text.Identifier

namespace Phrasebook

open Text

structure EntryKey where
  name : String
  parameters : List String
  deriving Repr, DecidableEq

namespace EntryKey

/-- The texts between commas. -/
def splitCommas (reversed : List Char) : List Char → List (List Char)
  | [] => [reversed.reverse]
  | character :: rest =>
      if character == ',' then reversed.reverse :: splitCommas [] rest
      else splitCommas (character :: reversed) rest

/-- A blank list has no parameters; otherwise blanks around each one do not count. -/
def splitParameters (inner : List Char) : List String :=
  if inner.all isBlank then []
  else (splitCommas [] inner).map fun parameter => String.ofList (trim parameter)

/-- The name and the parameters before they are checked. -/
def split (raw : String) : Except KeyFault EntryKey :=
  match splitBracketed raw.toList with
  | .error fault => .error (.bracket fault)
  | .ok none => .ok ⟨raw, []⟩
  | .ok (some (name, inner)) =>
      if inner.any fun character => character == '(' || character == ')' then
        .error .nestedParentheses
      else .ok ⟨String.ofList name, splitParameters inner⟩

/-- The first fault of the parameters after those already seen. -/
def parameterFault? (seen : List String) : List String → Option KeyFault
  | [] => none
  | parameter :: rest =>
      if !isIdentifier parameter then some (.invalidParameter parameter)
      else if seen.contains parameter then some (.repeatedParameter parameter)
      else parameterFault? (parameter :: seen) rest

def fault? (key : EntryKey) : Option KeyFault :=
  if !isIdentifier key.name then some (.invalidName key.name)
  else parameterFault? [] key.parameters

def parse (raw : String) : Except Defect EntryKey :=
  match split raw with
  | .error fault => .error (.invalidKey raw fault)
  | .ok key =>
      match key.fault? with
      | some fault => .error (.invalidKey raw fault)
      | none => .ok key

def hasParameters (key : EntryKey) : Bool :=
  !key.parameters.isEmpty

/-- The canonical text of a key. -/
def display (key : EntryKey) : String :=
  if key.hasParameters then key.name ++ "(" ++ ", ".intercalate key.parameters ++ ")"
  else key.name

end EntryKey

end Phrasebook
