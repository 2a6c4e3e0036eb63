/-
This file reads one entry of a catalog. A draft holds the wordings as they are written; an
entry has a wording for every language.
-/

import Phrasebook.Catalog.Key
import Phrasebook.Catalog.Language
import Phrasebook.Catalog.LanguageKey
import Phrasebook.Catalog.Template
import Phrasebook.Yaml.Value

namespace Phrasebook

open Text Yaml

/-- A text that replaces the plain one where its condition holds. -/
structure Conditional where
  condition : String
  template : Template
  deriving Repr, DecidableEq

structure Wording where
  base : Template
  conditionals : List Conditional
  /-- The entry has no text in this language and borrows that of the default language. -/
  isFallback : Bool
  deriving Repr, DecidableEq

structure Entry where
  key : EntryKey
  variantName : String
  functionName : String
  wordings : List (String × Wording)
  deriving Repr, DecidableEq

namespace Entry

def name (entry : Entry) : String :=
  entry.key.name

def parameters (entry : Entry) : List String :=
  entry.key.parameters

def wording? (entry : Entry) (language : String) : Option Wording :=
  entry.wordings.lookup language

end Entry

/-- How messages name the kind of a value. -/
def describe : Value → String
  | .null => "null"
  | .bool _ => "a boolean"
  | .number _ => "a number"
  | .string _ => "a string"
  | .sequence _ => "a sequence"
  | .mapping _ => "a mapping"
  | .tagged .. => "a tagged value"

/-- Strings, numbers and booleans without a tag are texts. -/
def scalarText? : Value → Option String
  | .string text => some text
  | .number number => some number.text
  | .bool value => some (if value then "true" else "false")
  | _ => none

/-- One pair of an entry. -/
structure WrittenText where
  key : LanguageKey
  template : Template
  deriving Repr, DecidableEq

namespace WrittenText

def plain? (written : WrittenText) : Option (String × Template) :=
  match written.key with
  | .plain language => some (language, written.template)
  | .conditional .. => none

def conditional? (written : WrittenText) : Option (String × Conditional) :=
  match written.key with
  | .plain _ => none
  | .conditional language condition => some (language, ⟨condition, written.template⟩)

def ofPair (strict : Bool) (rawKey : String) (parameters : List String) (pair : Value × Value) :
    Except Defect WrittenText := do
  let some language := pair.1.text?
    | throw (.malformed (.languageKey rawKey (describe pair.1)))
  let some text := scalarText? pair.2
    | throw (.malformed (.wording rawKey language (describe pair.2)))
  let template ← Template.read strict rawKey parameters text
  let key ← LanguageKey.parse rawKey language
  Language.check key.language
  return ⟨key, template⟩

end WrittenText

/-- An entry as it is written. -/
structure Draft where
  key : EntryKey
  rawKey : String
  wordings : List WrittenText
  deriving Repr, DecidableEq

namespace Draft

def plain (draft : Draft) : List (String × Template) :=
  draft.wordings.filterMap WrittenText.plain?

def conditionals (draft : Draft) : List (String × Conditional) :=
  draft.wordings.filterMap WrittenText.conditional?

/-- The first plain text of a language. -/
def base? (draft : Draft) (language : String) : Option Template :=
  draft.plain.lookup language

def conditionalsOf (draft : Draft) (language : String) : List Conditional :=
  (draft.conditionals.filter (·.1 == language)).map Prod.snd

def variantName (draft : Draft) : String :=
  upperCamelCase draft.key.name

def functionName (draft : Draft) : String :=
  snakeCase draft.key.name

/-- The default language needs a plain text, and so does every language with a condition. -/
def checkComplete (default : String) (draft : Draft) : Except Defect Unit :=
  if (draft.base? default).isNone then .error (.missingWording draft.rawKey)
  else
    match draft.conditionals.find? fun conditional => (draft.base? conditional.1).isNone with
    | some (language, _) => .error (.orphanConditional draft.rawKey language)
    | none => .ok ()

def ofPair (strict : Bool) (default rawKey : String) (value : Value) : Except Defect Draft := do
  let key ← EntryKey.parse rawKey
  let .mapping pairs := value
    | throw (.malformed (.entryValue rawKey (describe value)))
  let wordings ← pairs.mapM (WrittenText.ofPair strict rawKey key.parameters)
  let draft : Draft := ⟨key, rawKey, wordings⟩
  draft.checkComplete default
  return draft

/-- The names of the generated items must be identifiers that no earlier entry has. -/
def checkNames (seen : List Draft) (draft : Draft) : Except Defect Unit :=
  if !isIdentifier draft.variantName || !isIdentifier draft.functionName then
    .error (.invalidKey draft.rawKey .unusableName)
  else if seen.any fun earlier => earlier.variantName == draft.variantName ||
      earlier.functionName == draft.functionName then
    .error (.duplicateEntry draft.key.name)
  else .ok ()

/-- The wording into a language, given the text of the default language. -/
def wording (draft : Draft) (defaultBase : Template) (language : String) : Wording :=
  match draft.base? language with
  | some base => ⟨base, draft.conditionalsOf language, false⟩
  | none => ⟨defaultBase, [], true⟩

def complete (languages : List String) (default : String) (draft : Draft) :
    Except Defect Entry :=
  match draft.base? default with
  | none => .error (.missingWording draft.rawKey)
  | some defaultBase =>
      .ok ⟨draft.key, draft.variantName, draft.functionName,
        languages.map fun language => (language, draft.wording defaultBase language)⟩

end Draft

end Phrasebook
