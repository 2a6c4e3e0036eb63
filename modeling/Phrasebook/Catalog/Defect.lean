/-
This file lists what can be wrong with a catalog.
-/

import Phrasebook.Text.Bracketed
import Phrasebook.Yaml.Token

namespace Phrasebook

open Text

def backquote (text : String) : String :=
  "`" ++ text ++ "`"

inductive LanguageFault where
  | malformed
  | keyword
  | reserved
  | collision (method : String)
  deriving Repr, DecidableEq

def LanguageFault.message : LanguageFault → String
  | malformed => "expected [A-Za-z][A-Za-z0-9_-]*"
  | keyword => "is a Rust keyword"
  | reserved => "collides with a generated item"
  | collision method => "collides with another language on method " ++ backquote method

def bracketMessage : BracketFault → String
  | .unbalanced => "unbalanced parentheses"
  | .trailingText => "unexpected text after closing parenthesis"
  | .unterminatedLiteral => "unterminated string literal"

inductive LanguageKeyFault where
  | bracket (fault : BracketFault)
  | emptyCondition
  deriving Repr, DecidableEq

def LanguageKeyFault.message : LanguageKeyFault → String
  | bracket fault => bracketMessage fault
  | emptyCondition => "empty condition"

inductive KeyFault where
  | bracket (fault : BracketFault)
  | nestedParentheses
  | invalidName (name : String)
  | invalidParameter (parameter : String)
  | repeatedParameter (parameter : String)
  | languageKey (raw : String) (fault : LanguageKeyFault)
  | unusableName
  deriving Repr, DecidableEq

def KeyFault.message : KeyFault → String
  | bracket fault => bracketMessage fault
  | nestedParentheses => "nested parentheses in parameter list"
  | invalidName name => backquote name ++ " is not a valid identifier"
  | invalidParameter parameter =>
      "parameter " ++ backquote parameter ++ " is not a valid identifier"
  | repeatedParameter parameter => "parameter " ++ backquote parameter ++ " is declared twice"
  | languageKey raw fault => "language key " ++ backquote raw ++ ": " ++ fault.message
  | unusableName => "name does not produce a valid Rust identifier"

/-- The document has another shape than a catalog; `found` describes the value in the way. -/
inductive ShapeFault where
  | notMapping
  | entryKey (found : String)
  | entryValue (key found : String)
  | languageKey (key found : String)
  | wording (key language found : String)
  deriving Repr, DecidableEq

def ShapeFault.message : ShapeFault → String
  | notMapping => "top level must be a mapping"
  | entryKey found => "entry keys must be strings, found " ++ found
  | entryValue key found =>
      "entry " ++ backquote key ++ " must map language codes to text, found " ++ found
  | languageKey key found =>
      "entry " ++ backquote key ++ ": language keys must be strings, found " ++ found
  | wording key language found =>
      "entry " ++ backquote key ++ ": translation for " ++ backquote language ++
        " must be text, found " ++ found

inductive Defect where
  | unloadable (fault : Yaml.Fault)
  | malformed (fault : ShapeFault)
  | missingDefault
  | missingWording (key : String)
  | invalidKey (key : String) (fault : KeyFault)
  | undeclaredParameter (key parameter : String)
  | invalidLanguage (code : String) (fault : LanguageFault)
  | duplicateEntry (name : String)
  | orphanConditional (key language : String)
  deriving Repr, DecidableEq

namespace Defect

/-- The short name of the kind of defect, which reports show. -/
def kind : Defect → String
  | unloadable _ => "unparsable-definition"
  | malformed _ => "unparsable-definition"
  | missingDefault => "missing-default-language"
  | missingWording _ => "missing-translation-in-default-language"
  | invalidKey .. => "invalid-key-syntax"
  | undeclaredParameter .. => "undeclared-parameter-reference"
  | invalidLanguage .. => "invalid-language-code"
  | duplicateEntry _ => "duplicate-entry"
  | orphanConditional .. => "orphan-conditional"

def message : Defect → String
  | unloadable fault => "unparsable definition: " ++ fault.message
  | malformed fault => "unparsable definition: " ++ fault.message
  | missingDefault => "missing or malformed `default` language"
  | missingWording key =>
      "entry " ++ backquote key ++ " has no translation in the default language"
  | invalidKey key fault => "invalid key syntax " ++ backquote key ++ ": " ++ fault.message
  | undeclaredParameter key parameter =>
      "entry " ++ backquote key ++ " references undeclared parameter " ++ backquote parameter
  | invalidLanguage code fault =>
      "invalid language code " ++ backquote code ++ ": " ++ fault.message
  | duplicateEntry name => "duplicate entry " ++ backquote name
  | orphanConditional key language =>
      "entry " ++ backquote key ++ " has conditional variants for " ++ backquote language ++
        " but no plain " ++ backquote language ++ " translation"

/-- The entry that has the defect, if it belongs to one. -/
def key? : Defect → Option String
  | missingWording key => some key
  | invalidKey key _ => some key
  | undeclaredParameter key _ => some key
  | duplicateEntry name => some name
  | orphanConditional key _ => some key
  | unloadable _ => none
  | malformed _ => none
  | missingDefault => none
  | invalidLanguage .. => none

end Defect

end Phrasebook
