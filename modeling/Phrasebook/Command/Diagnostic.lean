/-
This file turns defects and findings into diagnostics, which name a rule, a file and a key.
-/

import Phrasebook.Preview.Basic

namespace Phrasebook

inductive Severity where
  | error
  | warning
  deriving Repr, DecidableEq

def Severity.name : Severity → String
  | error => "error"
  | warning => "warning"

/-- Errors come before warnings. -/
def Severity.rank : Severity → Nat
  | error => 0
  | warning => 1

structure Diagnostic where
  severity : Severity
  /-- The short name of what is wrong. -/
  rule : String
  message : String
  file : String
  key : Option String := none
  deriving Repr, DecidableEq

namespace Diagnostic

def ofDefect (file : String) (defect : Defect) : Diagnostic :=
  ⟨.error, defect.kind, defect.message, file, defect.key?⟩

def ofPreviewFault (file : String) (fault : PreviewFault) : Diagnostic :=
  ⟨.error, fault.kind, fault.message, file, none⟩

def skippedCondition (file name condition : String) : Diagnostic :=
  ⟨.warning, (PreviewFault.unsupportedCondition condition).kind,
    "condition " ++ backquote condition ++ " cannot be previewed, treated as false",
    file, some name⟩

def untranslated (file key language defaultLanguage : String) : Diagnostic :=
  ⟨.warning, "untranslated",
    "no " ++ backquote language ++ " translation, falls back to " ++ backquote defaultLanguage,
    file, some key⟩

def staleOutput (file : String) : Diagnostic :=
  ⟨.error, "stale-output",
    "generated code is out of date, run " ++ backquote "locgen generate", file, none⟩

def missingOutput (file : String) : Diagnostic :=
  ⟨.warning, "missing-output", "generated code does not exist yet", file, none⟩

/-- Diagnostics are ordered by severity, then key, then rule; one without a key comes first. -/
def order (first second : Diagnostic) : Ordering :=
  (compare first.severity.rank second.severity.rank).then <|
    (compare first.key second.key).then (compare first.rule second.rule)

/-- Diagnostics that the order does not tell apart stay as they are. -/
def sort (diagnostics : List Diagnostic) : List Diagnostic :=
  diagnostics.mergeSort fun first second => (order first second).isLE

end Diagnostic

end Phrasebook
