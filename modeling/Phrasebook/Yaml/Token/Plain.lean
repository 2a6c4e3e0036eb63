/-
This file reads plain scalars.
-/

import Phrasebook.Yaml.Token
import Phrasebook.Yaml.Token.Gap

namespace Phrasebook.Yaml.Plain

/-- The surroundings of a plain scalar: whether a flow collection is open, and the least column
of a continuation line outside one. -/
structure Context where
  inFlow : Bool
  indent : Nat

/-- The text after a colon starts with an indicator that no flow scalar may hold there. -/
def atFlowIndicator : List Char → Bool
  | [] => false
  | character :: _ =>
      character == ',' || character == '?' || character == '[' || character == ']' ||
        character == '\x7b' || character == '\x7d'

/-- This character ends a word inside a flow collection. -/
def endsFlowWord (character : Char) : Bool :=
  character == ',' || character == '[' || character == ']' ||
    character == '\x7b' || character == '\x7d'

/-- The scalar ends before a word that starts here. -/
def stopsBefore (context : Context) (gap : Gap) (position : Position) (text : List Char) : Bool :=
  match gap with
  | .none => false
  | _ =>
      (!context.inFlow && position.column < context.indent) ||
        (position.column == 0 && atDocumentMark text) || text.head? == some '#'

/-- A scalar, the unread text, and whether the text between them holds a line break. -/
structure Reading where
  text : List Char
  rest : Cursor
  crossesLine : Bool

def finish (reversed : List Char) (gap : Gap) (rest : Cursor) : Reading :=
  ⟨reversed.reverse, rest, gap.crossesLine⟩

def read (context : Context) (reversed : List Char) (gap : Gap) (position : Position) :
    List Char → Except Fault Reading
  | [] => .ok (finish reversed gap ⟨[], position⟩)
  | character :: rest =>
      if isBlank character then
        if character == '\t' && gap.crossesLine && position.column < context.indent then
          .error .unexpectedTab
        else
          read context reversed (gap.blank character) position.next rest
      else if isBreak character then
        read context reversed (gap.lineBreak character) position.nextLine rest
      else if stopsBefore context gap position (character :: rest) then
        .ok (finish reversed gap ⟨character :: rest, position⟩)
      else if context.inFlow && character == ':' && atFlowIndicator rest then
        .error .unexpectedColon
      else if (character == ':' && atSpacing rest) ||
          (context.inFlow && endsFlowWord character) then
        .ok (finish reversed gap ⟨character :: rest, position⟩)
      else
        read context (character :: gap.foldOnto reversed) .none position.next rest

/-- Reads a plain scalar that starts at the cursor. -/
def scan (context : Context) (cursor : Cursor) : Except Fault Reading :=
  read context [] .none cursor.position cursor.rest

end Phrasebook.Yaml.Plain
