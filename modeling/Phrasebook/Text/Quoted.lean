/-
This file writes a text as a string literal of the generated language.
-/

import Phrasebook.Text.Printable

namespace Phrasebook.Text

/-- The number of a character in lower-case hexadecimal digits. -/
def hexadecimal (character : Char) : List Char :=
  Nat.toDigits 16 character.toNat

def escape (character : Char) : List Char :=
  match character with
  | '\x00' => ['\\', '0']
  | '\t' => ['\\', 't']
  | '\r' => ['\\', 'r']
  | '\n' => ['\\', 'n']
  | '"' => ['\\', '"']
  | '\\' => ['\\', '\\']
  | _ =>
      if isPrintable character then [character]
      else ['\\', 'u', '\x7b'] ++ hexadecimal character ++ ['\x7d']

/-- The literal of a text, quotes included. -/
def quote (text : String) : String :=
  String.ofList ('"' :: text.toList.flatMap escape ++ ['"'])

/-- A path in quotes, in which single quotes are escaped too. -/
def quotePath (path : String) : String :=
  String.ofList ('"' :: path.toList.flatMap escapeInPath ++ ['"'])
where
  escapeInPath (character : Char) : List Char :=
    if character == '\'' then ['\\', '\''] else escape character

end Phrasebook.Text
