/-
This file reads block scalars.
-/

import Phrasebook.Yaml.Token

namespace Phrasebook.Yaml.Block

/-- A literal scalar keeps its line breaks; a folded one joins its lines. -/
inductive Kind where
  | literal
  | folded
  deriving DecidableEq

/-- What becomes of the line breaks after the last line. -/
inductive Chomping where
  | strip
  | clip
  | keep
  deriving DecidableEq

structure Header where
  chomping : Chomping := .clip
  increment : Option Nat := none

def chomping? : Char → Option Chomping
  | '+' => some .keep
  | '-' => some .strip
  | _ => none

/-- The indicators may come in either order; an indentation of zero is refused. -/
def header (cursor : Cursor) : Except Fault (Header × Cursor) :=
  match cursor.rest with
  | [] => .ok ({}, cursor)
  | first :: rest =>
      match chomping? first with
      | some chomping =>
          match rest with
          | digit :: _ =>
              if digit == '0' then .error .badBlockHeader
              else if digit.isDigit then
                .ok (⟨chomping, some (digit.toNat - '0'.toNat)⟩, cursor.drop 2)
              else .ok (⟨chomping, none⟩, cursor.drop 1)
          | [] => .ok (⟨chomping, none⟩, cursor.drop 1)
      | none =>
          if first == '0' then .error .badBlockHeader
          else if first.isDigit then
            let increment := some (first.toNat - '0'.toNat)
            match rest.head? >>= chomping? with
            | some chomping => .ok (⟨chomping, increment⟩, cursor.drop 2)
            | none => .ok (⟨.clip, increment⟩, cursor.drop 1)
          else .ok ({}, cursor)

/-- The text of a block scalar up to some line. Texts are reversed. -/
structure Draft where
  text : List Char := []
  /-- The break that ended the last line of text. -/
  lineBreak : Option Char := none
  /-- The breaks of the empty lines after it. -/
  emptyLines : List Char := []
  /-- The last line of text starts with a blank. -/
  startsBlank : Bool := false

namespace Draft

/-- Appends the breaks before a line of text that starts with `character`. -/
def joinLine (kind : Kind) (draft : Draft) (character : Char) : Draft :=
  let joined :=
    if kind == .folded && draft.lineBreak == some '\n' && !draft.startsBlank &&
        !isBlank character then
      if draft.emptyLines.isEmpty then ' ' :: draft.text else draft.text
    else
      draft.lineBreak.toList ++ draft.text
  ⟨draft.emptyLines ++ joined, none, [], isBlank character⟩

def push (draft : Draft) (character : Char) : Draft :=
  { draft with text := character :: draft.text }

def chomp (chomping : Chomping) (draft : Draft) : List Char :=
  match chomping with
  | .strip => draft.text.reverse
  | .clip => (draft.lineBreak.toList ++ draft.text).reverse
  | .keep => (draft.emptyLines ++ (draft.lineBreak.toList ++ draft.text)).reverse

end Draft

/-- The indentation of the lines is given by the header or found at the first line of text. -/
inductive Indentation where
  | known (columns : Nat)
  | sought (deepest : Nat)

/-- A line is shallower than the text when its blanks do not reach the indentation. -/
def Indentation.isShallow (indentation : Indentation) (column : Nat) : Bool :=
  match indentation with
  | .known columns => column < columns
  | .sought _ => true

/-- The indentation once a line has text at the column. -/
def Indentation.settle (indentation : Indentation) (least column : Nat) : Nat :=
  match indentation with
  | .known columns => columns
  | .sought deepest => max (max deepest column) least

def Indentation.pass (indentation : Indentation) (column : Nat) : Indentation :=
  match indentation with
  | .known columns => .known columns
  | .sought deepest => .sought (max deepest column)

structure Reading where
  text : List Char
  rest : Cursor

/-- Reads lines. `inLine` says that the current line has text already. -/
def read (kind : Kind) (chomping : Chomping) (least : Nat) (indentation : Indentation)
    (inLine : Bool) (draft : Draft) (position : Position) : List Char → Except Fault Reading
  | [] => .ok ⟨draft.chomp chomping, ⟨[], position⟩⟩
  | character :: rest =>
      if inLine then
        if isBreak character then
          read kind chomping least indentation false
            { draft with lineBreak := some character } position.nextLine rest
        else
          read kind chomping least indentation true (draft.push character) position.next rest
      else if character == ' ' && indentation.isShallow position.column then
        read kind chomping least indentation false draft position.next rest
      else if character == '\t' && indentation.isShallow position.column then
        .error .unexpectedTab
      else if isBreak character then
        read kind chomping least (indentation.pass position.column) false
          { draft with emptyLines := character :: draft.emptyLines } position.nextLine rest
      else
        let columns := indentation.settle least position.column
        if position.column == columns then
          read kind chomping least (.known columns) true
            ((draft.joinLine kind character).push character) position.next rest
        else
          .ok ⟨draft.chomp chomping, ⟨character :: rest, position⟩⟩

/-- Reads the scalar after its indicator. `parent` is the indentation of the surrounding block. -/
def scan (kind : Kind) (parent : Option Nat) (cursor : Cursor) : Except Fault Reading := do
  let (header, afterHeader) ← header cursor
  let lineEnd := afterHeader.skipLineTail
  if !atLineEnd lineEnd.rest then
    throw .badBlockHeader
  let start := lineEnd.skipBreak
  let indentation := match header.increment with
    | some increment => Indentation.known (parent.getD 0 + increment)
    | none => .sought 0
  let least := match parent with
    | some columns => columns + 1
    | none => 1
  read kind header.chomping least indentation false {} start.position start.rest

end Phrasebook.Yaml.Block
