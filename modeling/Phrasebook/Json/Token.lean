/-
This file splits a JSON text into tokens.

Settings are read and written by a package for JSON. The modules here stand for it and follow its
documented behaviour.
-/

import Phrasebook.Text.Digit

namespace Phrasebook.Json

open Text

/-- A string has no text when its escapes leave a surrogate without a partner. -/
inductive Token where
  | leftBrace
  | rightBrace
  | leftBracket
  | rightBracket
  | colon
  | comma
  | null
  | bool (value : Bool)
  | number
  | string (text : Option String)
  deriving Repr, DecidableEq

namespace Token

def isSpace (character : Char) : Bool :=
  character == ' ' || character == '\n' || character == '\t' || character == '\r'

def codeUnit? (a b c d : Char) : Option Nat :=
  [a, b, c, d].foldlM (fun value digit => (hexDigit? digit).map (value * 16 + ·)) 0

/-- One character of a string, or a code unit from an escape. -/
inductive Part where
  | character (value : Char)
  | unit (value : Nat)

def escape? : Char → Option Char
  | '"' => some '"'
  | '\\' => some '\\'
  | '/' => some '/'
  | 'b' => some '\x08'
  | 'f' => some '\x0c'
  | 'n' => some '\n'
  | 'r' => some '\r'
  | 't' => some '\t'
  | _ => none

/-- Reads the parts of a string after its opening quote. -/
def parts? (reversed : List Part) : List Char → Option (List Part × List Char)
  | [] => none
  | '"' :: rest => some (reversed.reverse, rest)
  | '\\' :: 'u' :: a :: b :: c :: d :: rest =>
      match codeUnit? a b c d with
      | some value => parts? (.unit value :: reversed) rest
      | none => none
  | '\\' :: escaped :: rest =>
      match escape? escaped with
      | some value => parts? (.character value :: reversed) rest
      | none => none
  | character :: rest =>
      if character == '\\' || character.toNat < 0x20 then none
      else parts? (.character character :: reversed) rest

/-- Joins the code units of surrogate pairs. -/
def joinParts? : List Part → Option (List Char)
  | [] => some []
  | .character value :: rest => (joinParts? rest).map (value :: ·)
  | .unit value :: rest =>
      if 0xD800 ≤ value ∧ value < 0xDC00 then
        match rest with
        | .unit low :: further =>
            if 0xDC00 ≤ low ∧ low < 0xE000 then
              (joinParts? further).map
                (Char.ofNat (0x10000 + (value - 0xD800) * 0x400 + (low - 0xDC00)) :: ·)
            else none
        | _ => none
      else if 0xDC00 ≤ value ∧ value < 0xE000 then none
      else (joinParts? rest).map (Char.ofNat value :: ·)

def digits? (text : List Char) : Option (List Char) :=
  if text.head?.any Char.isDigit then some (text.dropWhile Char.isDigit) else none

/-- A leading zero stands alone. -/
def wholePart? : List Char → Option (List Char)
  | '0' :: rest => some rest
  | text => digits? text

def fraction? : List Char → Option (List Char)
  | '.' :: rest => digits? rest
  | text => some text

def exponent? : List Char → Option (List Char)
  | mark :: rest =>
      if mark == 'e' || mark == 'E' then
        match rest with
        | sign :: further => if sign == '+' || sign == '-' then digits? further else digits? rest
        | [] => none
      else some (mark :: rest)
  | [] => some []

/-- The text after a number. -/
def number? (text : List Char) : Option (List Char) := do
  let unsigned := match text with
    | '-' :: rest => rest
    | _ => text
  exponent? (← fraction? (← wholePart? unsigned))

/-- Reads the token at the front of a text. -/
def next? (text : List Char) : Option (Token × List Char) :=
  match text with
  | '\x7b' :: rest => some (.leftBrace, rest)
  | '\x7d' :: rest => some (.rightBrace, rest)
  | '[' :: rest => some (.leftBracket, rest)
  | ']' :: rest => some (.rightBracket, rest)
  | ':' :: rest => some (.colon, rest)
  | ',' :: rest => some (.comma, rest)
  | 'n' :: 'u' :: 'l' :: 'l' :: rest => some (.null, rest)
  | 't' :: 'r' :: 'u' :: 'e' :: rest => some (.bool true, rest)
  | 'f' :: 'a' :: 'l' :: 's' :: 'e' :: rest => some (.bool false, rest)
  | '"' :: rest => do
      let (parts, further) ← parts? [] rest
      return (.string ((joinParts? parts).map String.ofList), further)
  | text => (number? text).map (.number, ·)

/-- Reads tokens to the end; each takes at least one character, so a count of one more than the
characters is enough. -/
def readAll : Nat → List Char → Option (List Token)
  | 0, _ => none
  | count + 1, text =>
      match text.dropWhile isSpace with
      | [] => some []
      | first :: rest => do
          let (token, further) ← next? (first :: rest)
          let tokens ← readAll count further
          return token :: tokens

def ofText (text : String) : Option (List Token) :=
  readAll (text.length + 1) text.toList

end Token

end Phrasebook.Json
