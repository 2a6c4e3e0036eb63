/-
This file runs a command line and says how it ends.
-/

import Phrasebook.Command.Arguments
import Phrasebook.Command.Run

namespace Phrasebook

def versionText : String :=
  "locgen 0.1.0"

def helpLines : List String :=
  ["Compile YAML translation catalogs into typed Rust accessors",
    "",
    "Usage: locgen [COMMAND]",
    "",
    "Commands:",
    "  generate  Compile the translation catalog into Rust accessors",
    "  check     Validate the catalog and verify the generated file is up to date",
    "  preview   Print one entry's translation for a locale",
    "  init      Initialize a new .locgenrc.json configuration file",
    "  help      Print this message or the help of the given subcommand(s)",
    "",
    "Options:",
    "  -h, --help     Print help",
    "  -V, --version  Print version"]

def helpText : String :=
  String.join (helpLines.map (· ++ "\n"))

/-- What is shown instead of running a command; the first line says the most. -/
def UsageNotice.text : UsageNotice → String
  | unknownArgument => "error: unexpected argument found\n"
  | unknownCommand => "error: unrecognized subcommand\n"
  | missingKey => "error: the following required arguments were not provided: <KEY>\n"
  | missingValue => "error: a value is required for an argument but none was supplied\n"
  | repeatedFlag => "error: an argument cannot be used multiple times\n"
  | unexpectedValue => "error: unexpected value found\n"
  | malformedArgument raw =>
      "error: invalid value '" ++ raw ++ "' for '--arg <ARGS>': expected NAME=VALUE, got " ++
        backquote raw ++ "\n"
  | help => helpText
  | version => versionText ++ "\n"

structure Ending where
  printed : Printed
  status : Status
  deriving Repr, DecidableEq

def Ending.ofResult (colored : Bool) : Except Failure Report → Ending
  | .ok report => ⟨report.print colored, report.status⟩
  | .error failure => ⟨⟨"", "Error: " ++ failure.message ++ "\n"⟩, .failure⟩

/-- Runs the command of a command line; without one the help is printed. -/
def runWords {m : Type → Type} [Monad m] [FileAccess m] (environment : Environment)
    (colored : Bool) (words : List String) : m (Except UsageNotice Ending) := do
  match CommandLine.read words with
  | .error notice => return .error notice
  | .ok none => return .ok ⟨⟨helpText, ""⟩, .success⟩
  | .ok (some command) => return .ok (.ofResult colored (← (command.run environment).run))

end Phrasebook
