/-
This file says which texts are identifiers of the generated language and derives identifiers in
the cases that its items need. Letters and digits are those of ASCII.
-/

namespace Phrasebook.Text

def keywords : List String :=
  ["abstract", "as", "async", "await", "become", "box", "break", "const", "continue", "crate",
    "do", "dyn", "else", "enum", "extern", "false", "final", "fn", "for", "gen", "if", "impl",
    "in", "let", "loop", "macro", "match", "mod", "move", "mut", "override", "priv", "pub", "ref",
    "return", "self", "Self", "static", "struct", "super", "trait", "true", "try", "type",
    "typeof", "unsafe", "unsized", "use", "virtual", "where", "while", "yield"]

def isKeyword (text : String) : Bool :=
  keywords.contains text

def startsName (character : Char) : Bool :=
  character.isAlpha || character == '_'

def continuesName (character : Char) : Bool :=
  character.isAlphanum || character == '_'

/-- A letter or underscore, then letters, digits and underscores. -/
def isName : List Char → Bool
  | [] => false
  | first :: rest => startsName first && rest.all continuesName

/-- Keywords and the lone underscore are names but no identifiers. -/
def isIdentifier (text : String) : Bool :=
  isName text.toList && text != "_" && !isKeyword text

/-- Joins the words between underscores; each starts with an upper-case letter. -/
def joinWords (atStart : Bool) : List Char → List Char
  | [] => []
  | character :: rest =>
      if character == '_' then joinWords true rest
      else (if atStart then character.toUpper else character) :: joinWords false rest

def upperCamelCase (text : String) : String :=
  String.ofList (joinWords true text.toList)

/-- An upper-case letter starts a new word after a lower-case letter or a digit. -/
def startsWord (previous : Option Char) (character : Char) : Bool :=
  character.isUpper && previous.any fun before => before.isLower || before.isDigit

def separateWords (previous : Option Char) : List Char → List Char
  | [] => []
  | character :: rest =>
      let separator := if startsWord previous character then ['_'] else []
      separator ++ character.toLower :: separateWords (some character) rest

def snakeCase (text : String) : String :=
  String.ofList (separateWords none text.toList)

end Phrasebook.Text
