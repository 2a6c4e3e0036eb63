/-
This file names the character classes of the markup language and the place of a character in a text.

Catalogs are loaded by a package for YAML. The modules here stand for it and follow its documented
behaviour, since commands have to run on real documents.
-/

namespace Phrasebook.Yaml

/-- A text may hold these characters anywhere. -/
def isAllowed (character : Char) : Bool :=
  character == '\t' || character == '\n' || character == '\r' ||
    (0x20 ≤ character.val && character.val ≤ 0x7E) || character.val == 0x85 ||
    (0xA0 ≤ character.val && character.val ≤ 0xFFFD) || 0x10000 ≤ character.val

/-- Every line break that reads as a line feed becomes one. -/
def unifyBreaks : List Char → List Char
  | [] => []
  | '\r' :: '\n' :: rest => '\n' :: unifyBreaks rest
  | '\r' :: rest => '\n' :: unifyBreaks rest
  | '\x85' :: rest => '\n' :: unifyBreaks rest
  | character :: rest => character :: unifyBreaks rest

def isBreak (character : Char) : Bool :=
  character == '\n' || character == '\u2028' || character == '\u2029'

def isBlank (character : Char) : Bool :=
  character == ' ' || character == '\t'

def isSpacing (character : Char) : Bool :=
  isBlank character || isBreak character

/-- Anchors, tag handles and directive names consist of these characters. -/
def isWordCharacter (character : Char) : Bool :=
  character.isAlphanum || character == '_' || character == '-'

/-- The text has ended or goes on with a blank or a line break. -/
def atSpacing : List Char → Bool
  | [] => true
  | character :: _ => isSpacing character

/-- The text has ended or goes on with a line break. -/
def atLineEnd : List Char → Bool
  | [] => true
  | character :: _ => isBreak character

/-- Three marks that stand alone at the start of a line separate documents. -/
def atSeparator (mark : Char) : List Char → Bool
  | first :: second :: third :: rest =>
      first == mark && second == mark && third == mark && atSpacing rest
  | _ => false

def atDocumentMark (text : List Char) : Bool :=
  atSeparator '-' text || atSeparator '.' text

/-- The place of a character counts characters from the start of the text, lines, and
characters from the start of the line. -/
structure Position where
  index : Nat := 0
  line : Nat := 0
  column : Nat := 0
  deriving Repr, DecidableEq, Inhabited

namespace Position

def advance (position : Position) (count : Nat) : Position :=
  ⟨position.index + count, position.line, position.column + count⟩

def next (position : Position) : Position :=
  position.advance 1

def nextLine (position : Position) : Position :=
  ⟨position.index + 1, position.line + 1, 0⟩

end Position

/-- The unread text and the place where it starts. -/
structure Cursor where
  rest : List Char
  position : Position := {}

namespace Cursor

/-- The characters that satisfy the test are read; none of them is a line break. -/
def skipWhile (test : Char → Bool) (cursor : Cursor) : Cursor :=
  ⟨cursor.rest.dropWhile test,
    cursor.position.advance (cursor.rest.takeWhile test).length⟩

def takeWhile (test : Char → Bool) (cursor : Cursor) : List Char × Cursor :=
  (cursor.rest.takeWhile test, cursor.skipWhile test)

def drop (count : Nat) (cursor : Cursor) : Cursor :=
  ⟨cursor.rest.drop count, cursor.position.advance count⟩

/-- A comment runs to the end of the line. -/
def skipComment (cursor : Cursor) : Cursor :=
  match cursor.rest with
  | '#' :: _ => cursor.skipWhile (!isBreak ·)
  | _ => cursor

/-- At most one line break is read. -/
def skipBreak (cursor : Cursor) : Cursor :=
  match cursor.rest with
  | character :: rest =>
      if isBreak character then ⟨rest, cursor.position.nextLine⟩ else cursor
  | [] => cursor

/-- Blanks and a comment are read up to the end of the line. -/
def skipLineTail (cursor : Cursor) : Cursor :=
  (cursor.skipWhile isBlank).skipComment

end Cursor

end Phrasebook.Yaml
