/-
This file runs the commands on files.
-/

import Phrasebook.Command.Basic
import Phrasebook.Command.Report

namespace Phrasebook

/-- Why a command could not start or finish its work at all. -/
inductive Failure where
  | noDirectory (path : String) (fault : FileFault)
  | project (fault : ProjectFault)
  | unreadableCatalog (path : String) (fault : FileFault)
  | directoryNotCreated (path : String) (fault : FileFault)
  | outputNotWritten (path : String) (fault : FileFault)
  | settingsNotWritten (fault : FileFault)
  deriving Repr, DecidableEq

def Failure.message : Failure → String
  | noDirectory path fault => "Project directory not found: " ++ path ++ ": " ++ fault.message
  | project fault => fault.message
  | unreadableCatalog path fault =>
      "Failed to read translation catalog: " ++ path ++
        "\nHint: Check the 'input' setting in .locgenrc.json or pass --input.: " ++ fault.message
  | directoryNotCreated path fault =>
      "Failed to create directory: " ++ path ++ ": " ++ fault.message
  | outputNotWritten path fault => "Failed to write file: " ++ path ++ ": " ++ fault.message
  | settingsNotWritten fault => fault.message

/-- Raises a fault of an operation as a failure. -/
def Failure.attempt {m : Type → Type} [Monad m] {α ε : Type} (failure : ε → Failure)
    (operation : m (Except ε α)) : ExceptT Failure m α := do
  match ← operation with
  | .ok value => return value
  | .error fault => throw (failure fault)

open Failure (attempt)

/-- What the commands need to know of a project. -/
structure Context where
  settings : Settings
  input : String
  output : String
  source : String
  deriving Repr, DecidableEq

namespace Context

variable {m : Type → Type} [Monad m] [FileAccess m]

/-- Paths below the working directory are written from there. -/
def load (selection : Selection) : ExceptT Failure m Context := do
  let start ← attempt (.noDirectory selection.path) (FileAccess.canonical (m := m) selection.path)
  let project ← attempt .project (Project.load (m := m) start)
  let directory ← (FileAccess.workingDirectory : m String)
  let input := Path.relativeTo directory
    (selection.input.getD (Path.join project.root project.settings.input))
  let output := Path.relativeTo directory
    (selection.output.getD (Path.join project.root project.settings.output))
  let source ← attempt (.unreadableCatalog input) (FileAccess.readText (m := m) input)
  return ⟨project.settings, input, output, source⟩

/-- The options of the settings with those that a command adds. -/
def options (context : Context) (additions : Additions) : Code.Options :=
  let options := context.settings.options
  { options with
    strict := options.strict || additions.strict
    embedSource := options.embedSource || additions.embedSource }

/-- The catalog and its code, in one file. -/
def compile (context : Context) (additions : Additions) : Except Defect (Catalog × String) := do
  let options := context.options additions
  let catalog ← Catalog.parse options.strict context.source
  return (catalog, (Code.generate catalog options (some context.source)).source)

end Context

/-- The value of a variable of the environment, if it is set. -/
abbrev Environment := String → Option String

/-- The first variable of the environment that names a locale. -/
def Environment.locale (environment : Environment) : String :=
  ((Code.localeVariables.filterMap environment).find? (! ·.isEmpty)).getD ""

namespace Command

variable {m : Type → Type} [Monad m] [FileAccess m]

/-- Nothing is written if the output holds the code already. -/
def writeOutput (path source : String) : ExceptT Failure m Bool := do
  if let .ok text ← (FileAccess.readText path : m (Except FileFault String)) then
    if text == source then return false
  if let some parent := Path.parent? path then
    attempt (.directoryNotCreated parent) (FileAccess.createDirectories (m := m) parent)
  attempt (.outputNotWritten path) (FileAccess.writeText (m := m) path source)
  return true

def runGenerate (selection : Selection) (additions : Additions) (toStdout : Bool) :
    ExceptT Failure m Report := do
  let context ← Context.load selection
  match context.compile additions with
  | .error defect => return .stopped (.ofDefect context.input defect)
  | .ok (catalog, source) =>
      if toStdout then return .finish (.printed source) [] .success .failure
      let changed ← writeOutput context.output source
      return .finish
        (.generated context.output changed catalog.entries.length catalog.languages.length)
        [] .success .failure

def untranslated (file : String) (catalog : Catalog) : List Diagnostic :=
  catalog.untranslated.map fun (entry, language) =>
    .untranslated file entry.key.display language catalog.defaultLanguage

/-- What the output is found to be, and whether it holds the code. -/
def inspect (path source : String) : Except FileFault String → Option Bool × List Diagnostic
  | .ok text => if text == source then (some true, []) else (some false, [.staleOutput path])
  | .error _ => (none, [.missingOutput path])

def runCheck (selection : Selection) (additions : Additions) : ExceptT Failure m Report := do
  let context ← Context.load selection
  match context.compile additions with
  | .error defect => return .stopped (.ofDefect context.input defect)
  | .ok (catalog, source) =>
      let missing := untranslated context.input catalog
      let (fresh, findings) := inspect context.output source
        (← (FileAccess.readText context.output : m (Except FileFault String)))
      return .finish
        (.checked catalog.entries.length catalog.languages.length missing.length fresh)
        (missing ++ findings) .success .attention

def runPreview (environment : Environment) (selection : Selection) (name : String)
    (locale : Option String) (arguments : List (String × String)) : ExceptT Failure m Report := do
  let context ← Context.load selection
  match Catalog.parse context.settings.options.strict context.source with
  | .error defect => return .stopped (.ofDefect context.input defect)
  | .ok catalog =>
      let locale := locale.getD environment.locale
      match Preview.ofCatalog catalog name locale fun name => arguments.reverse.lookup name with
      | .error fault => return .stopped (.ofPreviewFault context.input fault)
      | .ok shown =>
          return .finish (.previewed locale shown)
            (shown.skipped.map (.skippedCondition context.input name)) .success .failure

/-- Settings that are already present stay as they are. -/
def runInit : ExceptT Failure m Report := do
  if ← (FileAccess.isPresent Settings.fileName : m Bool) then
    return .finish (.initialized false) [] .attention .attention
  attempt .settingsNotWritten
    (FileAccess.writeText (m := m) Settings.fileName (Settings.toJson {}))
  return .finish (.initialized true) [] .success .attention

def run (environment : Environment) : Command → ExceptT Failure m Report
  | generate selection additions toStdout => runGenerate selection additions toStdout
  | check selection additions => runCheck selection additions
  | preview selection name locale arguments =>
      runPreview environment selection name locale arguments
  | init => runInit

end Command

end Phrasebook
