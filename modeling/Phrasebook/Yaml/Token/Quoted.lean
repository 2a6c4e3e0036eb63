/-
This file reads quoted scalars.
-/

import Phrasebook.Text.Digit
import Phrasebook.Yaml.Token
import Phrasebook.Yaml.Token.Gap

namespace Phrasebook.Yaml.Quoted

open Text

/-- Single quotes escape only themselves; double quotes have escapes after a backslash. -/
inductive Quote where
  | single
  | double
  deriving DecidableEq

def Quote.mark : Quote → Char
  | single => '\''
  | double => '"'

/-- An escape stands for one character or announces a count of hexadecimal digits. -/
inductive Escape where
  | character (value : Char)
  | digits (count : Nat)

def escape? : Char → Option Escape
  | '0' => some (.character '\x00')
  | 'a' => some (.character '\x07')
  | 'b' => some (.character '\x08')
  | 't' => some (.character '\t')
  | '\t' => some (.character '\t')
  | 'n' => some (.character '\n')
  | 'v' => some (.character '\x0b')
  | 'f' => some (.character '\x0c')
  | 'r' => some (.character '\r')
  | 'e' => some (.character '\x1b')
  | ' ' => some (.character ' ')
  | '"' => some (.character '"')
  | '/' => some (.character '/')
  | '\\' => some (.character '\\')
  | 'N' => some (.character '\x85')
  | '_' => some (.character '\xa0')
  | 'L' => some (.character '\u2028')
  | 'P' => some (.character '\u2029')
  | 'x' => some (.digits 2)
  | 'u' => some (.digits 4)
  | 'U' => some (.digits 8)
  | _ => none

/-- A number names a character unless it is a surrogate or too large. -/
def character? (code : Nat) : Option Char :=
  if code.isValidChar then some (Char.ofNat code) else none

/-- The digits of an escape are still to be read, with the value of those read so far. -/
structure Pending where
  count : Nat
  value : Nat

structure Reading where
  text : List Char
  rest : Cursor

def read (quote : Quote) (reversed : List Char) (gap : Gap) (pending : Option Pending)
    (position : Position) : List Char → Except Fault Reading
  | [] => .error .unclosedQuote
  | character :: rest =>
      match pending with
      | some ⟨count, value⟩ =>
          match hexDigit? character with
          | none => .error .badEscape
          | some digit =>
              if count ≤ 1 then
                match character? (value * 16 + digit) with
                | none => .error .badEscape
                | some decoded => read quote (decoded :: reversed) .none none position.next rest
              else
                read quote reversed .none (some ⟨count - 1, value * 16 + digit⟩) position.next rest
      | none =>
          if isBlank character then
            read quote reversed (gap.blank character) none position.next rest
          else if isBreak character then
            read quote reversed (gap.lineBreak character) none position.nextLine rest
          else if position.column == 0 && atDocumentMark (character :: rest) then
            .error .unclosedQuote
          else if character == quote.mark then
            match quote, rest with
            | .single, '\'' :: further =>
                read quote ('\'' :: gap.foldOnto reversed) .none none (position.advance 2) further
            | _, _ => .ok ⟨(gap.foldOnto reversed).reverse, ⟨rest, position.next⟩⟩
          else if quote == .double && character == '\\' then
            match rest with
            | [] => .error .badEscape
            | escaped :: further =>
                if isBreak escaped then
                  read quote (gap.foldOnto reversed) (.continued []) none
                    position.next.nextLine further
                else
                  match escape? escaped with
                  | none => .error .badEscape
                  | some (.character decoded) =>
                      read quote (decoded :: gap.foldOnto reversed) .none none
                        (position.advance 2) further
                  | some (.digits count) =>
                      read quote (gap.foldOnto reversed) .none (some ⟨count, 0⟩)
                        (position.advance 2) further
          else
            read quote (character :: gap.foldOnto reversed) .none none position.next rest

/-- Reads the scalar after an opening quote. -/
def scan (quote : Quote) (cursor : Cursor) : Except Fault Reading :=
  read quote [] .none none cursor.position cursor.rest

end Phrasebook.Yaml.Quoted
