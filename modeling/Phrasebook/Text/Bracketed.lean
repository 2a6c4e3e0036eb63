/-
This file splits a text of the form `head(inner)`. Parentheses inside double-quoted literals do
not count.
-/

namespace Phrasebook.Text

inductive BracketFault where
  | unbalanced
  | trailingText
  | unterminatedLiteral
  deriving Repr, DecidableEq

/-- Whether a place in a text lies outside literals, inside one, or after a backslash in one. -/
inductive LiteralState where
  | outside
  | inside
  | escaped
  deriving Repr, DecidableEq

namespace LiteralState

def next (state : LiteralState) (character : Char) : LiteralState :=
  match state with
  | outside => if character == '"' then inside else outside
  | inside =>
      if character == '\\' then escaped
      else if character == '"' then outside
      else inside
  | escaped => inside

end LiteralState

/-- Reads up to the parenthesis that closes the text, with `depth` further ones open. -/
def splitInner (depth : Nat) (state : LiteralState) (reversed : List Char) :
    List Char → Except BracketFault (List Char)
  | [] => .error (if state == .outside then .unbalanced else .unterminatedLiteral)
  | character :: rest =>
      let proceed (depth : Nat) :=
        splitInner depth (state.next character) (character :: reversed) rest
      if state != .outside then proceed depth
      else if character == '(' then proceed (depth + 1)
      else if character == ')' then
        match depth with
        | 0 => if rest.isEmpty then .ok reversed.reverse else .error .trailingText
        | outer + 1 => proceed outer
      else proceed depth

/-- Splits at the first parenthesis; a text without parentheses has no parts. -/
def splitBracketed (text : List Char) : Except BracketFault (Option (List Char × List Char)) :=
  match text.dropWhile (· != '(') with
  | [] => if text.contains ')' then .error .unbalanced else .ok none
  | _ :: rest => do
      let inner ← splitInner 0 .outside [] rest
      return some (text.takeWhile (· != '('), inner)

end Phrasebook.Text
