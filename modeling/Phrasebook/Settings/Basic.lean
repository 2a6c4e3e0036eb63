/-
This file holds the settings of a project and reads them from JSON.
-/

import Phrasebook.Code.Compile
import Phrasebook.Json.Text
import Phrasebook.Json.Value

namespace Phrasebook

open Text

structure Settings where
  input : String := "Localized.yml"
  output : String := "src/localized.rs"
  enumName : String := "Localized"
  facadeName : String := "loc"
  embedSource : Bool := false
  strictPlaceholders : Bool := false
  deriving Repr, DecidableEq

inductive SettingsFault where
  | enumName (name : String)
  | facadeName (name : String)
  | sameNames
  deriving Repr, DecidableEq

def SettingsFault.message : SettingsFault → String
  | enumName name => "Invalid 'enumName': \"" ++ name ++ "\" is not a Rust identifier"
  | facadeName name => "Invalid 'facadeName': \"" ++ name ++ "\" is not a Rust identifier"
  | sameNames => "'enumName' and 'facadeName' must differ"

namespace Settings

inductive Field where
  | input
  | output
  | enumName
  | facadeName
  | embedSource
  | strictPlaceholders
  deriving Repr, DecidableEq

namespace Field

/-- The order in which an array gives the fields. -/
def all : List Field :=
  [input, output, enumName, facadeName, embedSource, strictPlaceholders]

def name : Field → String
  | input => "input"
  | output => "output"
  | enumName => "enumName"
  | facadeName => "facadeName"
  | embedSource => "embedSource"
  | strictPlaceholders => "strictPlaceholders"

def named? (name : String) : Option Field :=
  all.find? (·.name == name)

end Field

/-- Sets a field if the value has its type. -/
def set? (settings : Settings) (field : Field) (value : Json.Value) : Option Settings :=
  match field, value with
  | .input, .string (some text) => some { settings with input := text }
  | .output, .string (some text) => some { settings with output := text }
  | .enumName, .string (some text) => some { settings with enumName := text }
  | .facadeName, .string (some text) => some { settings with facadeName := text }
  | .embedSource, .bool value => some { settings with embedSource := value }
  | .strictPlaceholders, .bool value => some { settings with strictPlaceholders := value }
  | _, _ => none

/-- Unknown members are ignored and known ones may not be repeated. -/
def ofMembers? (settings : Settings) (seen : List Field) :
    List (Option String × Json.Value) → Option Settings
  | [] => some settings
  | (name, value) :: rest => do
      match Field.named? (← name) with
      | none => ofMembers? settings seen rest
      | some field =>
          if seen.contains field then none
          else ofMembers? (← settings.set? field value) (field :: seen) rest

/-- An array gives the first fields in order. -/
def ofItems? (settings : Settings) : List Field → List Json.Value → Option Settings
  | _, [] => some settings
  | [], _ :: _ => none
  | field :: fields, item :: items => do ofItems? (← settings.set? field item) fields items

def ofJson? : Json.Value → Option Settings
  | .object members => ofMembers? {} [] members
  | .array items => ofItems? {} Field.all items
  | _ => none

def parse? (text : String) : Option Settings := do
  ofJson? (← Json.Value.ofText? text)

def toJson (settings : Settings) : String :=
  Json.objectText
    [(Field.input.name, Json.quote settings.input),
      (Field.output.name, Json.quote settings.output),
      (Field.enumName.name, Json.quote settings.enumName),
      (Field.facadeName.name, Json.quote settings.facadeName),
      (Field.embedSource.name, Json.ofBool settings.embedSource),
      (Field.strictPlaceholders.name, Json.ofBool settings.strictPlaceholders)]

/-- The names of the generated items must be different identifiers. -/
def fault? (settings : Settings) : Option SettingsFault :=
  if !isIdentifier settings.enumName then some (.enumName settings.enumName)
  else if !isIdentifier settings.facadeName then some (.facadeName settings.facadeName)
  else if settings.enumName == settings.facadeName then some .sameNames
  else none

def options (settings : Settings) : Code.Options :=
  ⟨settings.strictPlaceholders, ⟨settings.enumName, settings.facadeName⟩, settings.embedSource⟩

end Settings

end Phrasebook
