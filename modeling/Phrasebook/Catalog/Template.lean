/-
This file splits the text of a wording at the parameters that it mentions.
-/

import Phrasebook.Catalog.Defect
import Phrasebook.Text.Identifier

namespace Phrasebook

open Text

inductive Segment where
  | literal (text : String)
  | placeholder (parameter : String)
  deriving Repr, DecidableEq

/-- The values of parameters. -/
abbrev Arguments := String → Option String

namespace Segment

def display : Segment → String
  | literal text => text
  | placeholder parameter => "(" ++ parameter ++ ")"

def placeholder? : Segment → Option String
  | literal _ => none
  | placeholder parameter => some parameter

/-- A parameter without a value leaves nothing. -/
def render (arguments : Arguments) : Segment → String
  | literal text => text
  | placeholder parameter => (arguments parameter).getD ""

/-- Braces of a format string are written twice. -/
def doubleBrace (character : Char) : List Char :=
  if character == '\x7b' || character == '\x7d' then [character, character] else [character]

def format : Segment → String
  | literal text => String.ofList (text.toList.flatMap doubleBrace)
  | placeholder parameter => "\x7b" ++ parameter ++ "\x7d"

end Segment

abbrev Template := List Segment

namespace Template

/-- A literal of a reversed text, unless that is empty. -/
def literal (reversed : List Char) : Template :=
  if reversed.isEmpty then [] else [.literal (String.ofList reversed.reverse)]

/-- The first parameter that is followed by a closing parenthesis where the text goes on. -/
def parameterAt? (parameters : List String) (text : List Char) : Option String :=
  parameters.find? fun parameter => (parameter.toList ++ [')']).isPrefixOf text

/-- Splits a text after a reversed literal. -/
def split (parameters : List String) (reversed : List Char) : List Char → Template
  | [] => literal reversed
  | character :: rest =>
      if character == '(' then
        match parameterAt? parameters rest with
        | some parameter =>
            literal reversed ++ .placeholder parameter ::
              split parameters [] (rest.drop (parameter.toList.length + 1))
        | none => split parameters (character :: reversed) rest
      else split parameters (character :: reversed) rest
termination_by text => text.length
decreasing_by all_goals (simp; try omega)

def ofText (parameters : List String) (text : String) : Template :=
  split parameters [] text.toList

/-- The name that stands here and is followed by a closing parenthesis. -/
def nameAt? (text : List Char) : Option String :=
  let name := text.takeWhile continuesName
  if isName name && (text.drop name.length).head? == some ')' then some (String.ofList name)
  else none

/-- The names in parentheses, in order. -/
def references : List Char → List String
  | [] => []
  | character :: rest =>
      let here := if character == '(' then (nameAt? rest).toList else []
      here ++ references rest

/-- The names in parentheses that are no parameters, each once. -/
def undeclared (parameters : List String) (text : String) : List String :=
  ((references text.toList).filter (!parameters.contains ·)).eraseDups

/-- Refuses a name in parentheses that is no parameter. -/
def ofTextStrict (key : String) (parameters : List String) (text : String) :
    Except Defect Template :=
  match undeclared parameters text with
  | parameter :: _ => .error (.undeclaredParameter key parameter)
  | [] => .ok (ofText parameters text)

def read (strict : Bool) (key : String) (parameters : List String) (text : String) :
    Except Defect Template :=
  if strict then ofTextStrict key parameters text else .ok (ofText parameters text)

def placeholders (template : Template) : List String :=
  template.filterMap Segment.placeholder?

def hasPlaceholders (template : Template) : Bool :=
  !template.placeholders.isEmpty

def display (template : Template) : String :=
  String.join (template.map Segment.display)

def render (template : Template) (arguments : Arguments) : String :=
  String.join (template.map (Segment.render arguments))

def format (template : Template) : String :=
  String.join (template.map Segment.format)

end Template

end Phrasebook
