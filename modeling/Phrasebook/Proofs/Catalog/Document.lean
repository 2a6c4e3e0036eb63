/-
This file says what the pairs of a document mean to a catalog, one pair at a time and without
the checks of a reading.
-/

import Phrasebook.Catalog.Basic

namespace Phrasebook

open Text Yaml

abbrev Pair := Value × Value

/-- Only a mapping has pairs. -/
def Yaml.Value.pairs : Value → List Pair
  | .mapping pairs => pairs
  | _ => []

namespace Pair

/-- The key of a wording and its text. -/
def wording? (pair : Pair) : Option (LanguageKey × String) :=
  match pair.1.text?, scalarText? pair.2 with
  | some raw, some text => (LanguageKey.split raw).toOption.map fun key => (key, text)
  | _, _ => none

/-- A language and its plain text. -/
def plain? (pair : Pair) : Option (String × String) :=
  match pair.wording? with
  | some (.plain language, text) => some (language, text)
  | _ => none

/-- A language, a condition and the text where the condition holds. -/
def conditional? (pair : Pair) : Option (String × String × String) :=
  match pair.wording? with
  | some (.conditional language condition, text) => some (language, condition, text)
  | _ => none

def entryKey? (pair : Pair) : Option EntryKey :=
  pair.1.text?.bind fun raw => (EntryKey.parse raw).toOption

/-- The pairs of an entry. -/
def wordings (pair : Pair) : List Pair :=
  pair.2.pairs

def plainTexts (pair : Pair) : List (String × String) :=
  pair.wordings.filterMap plain?

def conditionalTexts (pair : Pair) : List (String × String × String) :=
  pair.wordings.filterMap conditional?

def plainLanguages (pair : Pair) : List String :=
  pair.plainTexts.map Prod.fst

def conditionalLanguages (pair : Pair) : List String :=
  pair.conditionalTexts.map Prod.fst

/-- The texts of a language with their conditions, in order. -/
def conditionalsOf (pair : Pair) (parameters : List String) (language : String) :
    List Conditional :=
  (pair.conditionalTexts.filter (·.1 == language)).map fun (_, condition, text) =>
    ⟨condition, Template.ofText parameters text⟩

theorem plain?_eq_some_iff {pair : Pair} {language text : String} :
    pair.plain? = some (language, text) ↔ pair.wording? = some (.plain language, text) := by
  rw [plain?]
  split
  · rename_i isWording
    simp [isWording]
  · rename_i other
    apply iff_of_false (by simp)
    exact other language text

theorem conditional?_eq_some_iff {pair : Pair} {language condition text : String} :
    pair.conditional? = some (language, condition, text) ↔
      pair.wording? = some (.conditional language condition, text) := by
  rw [conditional?]
  split
  · rename_i isWording
    simp [isWording, and_assoc]
  · rename_i other
    apply iff_of_false (by simp)
    exact other language condition text

/-- A key that reads as the field of the default language makes no entry, whatever its tags. -/
def isEntry (pair : Pair) : Bool :=
  pair.1.text? != some Catalog.defaultField

/-- The names of the generated items of two entries differ. -/
def NamesApart (first second : Pair) : Prop :=
  ∀ firstKey secondKey, first.entryKey? = some firstKey → second.entryKey? = some secondKey →
    upperCamelCase firstKey.name ≠ upperCamelCase secondKey.name ∧
      snakeCase firstKey.name ≠ snakeCase secondKey.name

end Pair

/-- The entries of a document, in order. -/
def entryPairs (pairs : List Pair) : List Pair :=
  pairs.filter Pair.isEntry

/-- The languages with a plain text, entry by entry. -/
def writtenLanguages (pairs : List Pair) : List String :=
  (entryPairs pairs).flatMap Pair.plainLanguages

/-- The known languages in order of appearance. A document without entries has the default. -/
def knownLanguages (default : String) (pairs : List Pair) : List String :=
  if entryPairs pairs = [] then [default] else (writtenLanguages pairs).eraseDups

end Phrasebook
