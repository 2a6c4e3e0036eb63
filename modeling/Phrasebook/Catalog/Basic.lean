/-
This file reads a catalog. Entries keep their order; languages stand in the order in which they
first have a plain text.
-/

import Phrasebook.Catalog.Entry
import Phrasebook.Yaml.Load

namespace Phrasebook

open Yaml

structure Catalog where
  defaultLanguage : String
  languages : List String
  entries : List Entry
  deriving Repr, DecidableEq

namespace Catalog

/-- The field that names the default language. -/
def defaultField : String := "default"

/-- Only a field without a tag names the default language. -/
def isDefaultField : Value → Bool
  | .string text => text == defaultField
  | _ => false

def defaultOf (pairs : List (Value × Value)) : Except Defect String :=
  match pairs.find? fun pair => isDefaultField pair.1 with
  | some (_, .string code) =>
      if (Language.fault? code).isNone then .ok code else .error .missingDefault
  | _ => .error .missingDefault

/-- Reads the entries after those already seen; the latest seen comes first. -/
def readDrafts (strict : Bool) (default : String) (seen : List Draft) :
    List (Value × Value) → Except Defect (List Draft)
  | [] => .ok []
  | (key, value) :: rest => do
      let some rawKey := key.text?
        | throw (.malformed (.entryKey (describe key)))
      if rawKey == defaultField then
        readDrafts strict default seen rest
      else
        let draft ← Draft.ofPair strict default rawKey value
        draft.checkNames seen
        let drafts ← readDrafts strict default (draft :: seen) rest
        return draft :: drafts

/-- The languages with a plain text, in order of appearance, and always the default. -/
def languagesOf (default : String) (drafts : List Draft) : List String :=
  let written := (drafts.flatMap fun draft => draft.plain.map Prod.fst).eraseDups
  if written.contains default then written else written ++ [default]

/-- Two languages must not share the name of their accessor. -/
def checkMethods (seen : List String) : List String → Except Defect Unit
  | [] => .ok ()
  | language :: rest =>
      let method := Language.methodName language
      if seen.contains method then .error (.invalidLanguage language (.collision method))
      else checkMethods (method :: seen) rest

def ofDrafts (default : String) (drafts : List Draft) : Except Defect Catalog := do
  let languages := languagesOf default drafts
  checkMethods [] languages
  let entries ← drafts.mapM (Draft.complete languages default)
  return ⟨default, languages, entries⟩

/-- Reads a catalog from a loaded document. A strict reading refuses names in parentheses that
are no parameters. -/
def ofValue (strict : Bool) (value : Value) : Except Defect Catalog := do
  let .mapping pairs := value
    | throw (.malformed .notMapping)
  let default ← defaultOf pairs
  let drafts ← readDrafts strict default [] pairs
  ofDrafts default drafts

def parse (strict : Bool) (source : String) : Except Defect Catalog :=
  match Value.load source with
  | .error fault => .error (.unloadable fault)
  | .ok value => ofValue strict value

def entry? (catalog : Catalog) (name : String) : Option Entry :=
  catalog.entries.find? (·.name == name)

/-- The language that the accessors choose for a locale. -/
def resolve (catalog : Catalog) (locale : String) : String :=
  Language.resolve locale catalog.languages catalog.defaultLanguage

/-- The entries and languages that borrow the text of the default language. -/
def untranslated (catalog : Catalog) : List (Entry × String) :=
  catalog.entries.flatMap fun entry =>
    (catalog.languages.filter fun language =>
      (entry.wording? language).any (·.isFallback)).map (entry, ·)

end Catalog

end Phrasebook
