/-
This file checks language codes and chooses the language for a locale.
-/

import Phrasebook.Catalog.Defect
import Phrasebook.Text.Identifier

namespace Phrasebook.Language

open Text

/-- The names that the accessors use for themselves. -/
def reservedNames : List String :=
  ["string", "string_for", "system_language", "SOURCE"]

/-- The accessor of a language has its code for a name. -/
def methodName (code : String) : String :=
  code.map fun character => if character == '-' then '_' else character

def isCode : List Char → Bool
  | [] => false
  | first :: rest =>
      first.isAlpha && rest.all fun character => continuesName character || character == '-'

def fault? (code : String) : Option LanguageFault :=
  if !isCode code.toList then some .malformed
  else if isKeyword (methodName code) then some .keyword
  else if reservedNames.contains (methodName code) then some .reserved
  else none

def check (code : String) : Except Defect Unit :=
  match fault? code with
  | some fault => .error (.invalidLanguage code fault)
  | none => .ok ()

/-- The first known language besides the default that starts the requested locale. -/
def resolve (requested : String) (known : List String) (default : String) : String :=
  let matching := known.find? fun language =>
    language != default && language.toList.isPrefixOf requested.toList
  matching.getD default

end Phrasebook.Language
