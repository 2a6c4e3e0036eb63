/-
This file writes what a command did as lines of text, with colours if wanted.
-/

import Phrasebook.Command.Diagnostic
import Phrasebook.Settings.Discovery

namespace Phrasebook

/-- How a command ends: done, done with something left to do, or not done. -/
inductive Status where
  | success
  | attention
  | failure
  deriving Repr, DecidableEq

def Status.code : Status → Nat
  | success => 0
  | attention => 1
  | failure => 2

/-- The worse of two statuses. -/
def Status.max (first second : Status) : Status :=
  if first.code < second.code then second else first

inductive Summary where
  | generated (path : String) (changed : Bool) (entries languages : Nat)
  | printed (source : String)
  | checked (entries languages untranslated : Nat) (fresh : Option Bool)
  | previewed (locale : String) (preview : Preview)
  | initialized (created : Bool)
  /-- The diagnostics say all. -/
  | stopped
  deriving Repr, DecidableEq

structure Report where
  summary : Summary
  diagnostics : List Diagnostic
  status : Status
  deriving Repr, DecidableEq

/-- What a command writes to its two outputs. -/
structure Printed where
  output : String := ""
  errors : String := ""
  deriving Repr, DecidableEq

namespace Report

/-- Any error among the diagnostics raises the status to the given one. -/
def finish (summary : Summary) (diagnostics : List Diagnostic) (status ofErrors : Status) :
    Report :=
  ⟨summary, Diagnostic.sort diagnostics,
    if diagnostics.any (·.severity == .error) then status.max ofErrors else status⟩

def stopped (diagnostic : Diagnostic) : Report :=
  finish .stopped [diagnostic] .success .failure

def count (report : Report) (severity : Severity) : Nat :=
  (report.diagnostics.filter (·.severity == severity)).length

end Report

/-- Ways to set text off on a terminal. -/
inductive Style where
  | boldRed
  | boldYellow
  | dimmedCyan
  | red
  | green
  | yellow
  | blue
  | bold
  | dimmed
  deriving Repr, DecidableEq

namespace Style

def parameters : Style → String
  | boldRed => "1;31"
  | boldYellow => "1;33"
  | dimmedCyan => "2;36"
  | red => "31"
  | green => "32"
  | yellow => "33"
  | blue => "34"
  | bold => "1"
  | dimmed => "2"

def start (style : Style) : List Char :=
  '\x1b' :: '[' :: style.parameters.toList ++ ['m']

def reset : List Char :=
  ['\x1b', '[', '0', 'm']

/-- A text that ends a style itself takes this one up again. -/
def resume (style : Style) : List Char → List Char
  | [] => []
  | '\x1b' :: '[' :: '0' :: 'm' :: rest => reset ++ style.start ++ resume style rest
  | character :: rest => character :: resume style rest

/-- The text in the style, or the text alone without colours. A package for colours does this. -/
def paint (colored : Bool) (style : Style) (text : String) : String :=
  if colored then String.ofList (style.start ++ style.resume text.toList ++ reset) else text

end Style

namespace Report

def successMark : String := "✓"

def failureMark : String := "✘"

/-- A number with its noun in the right form. -/
def plural (count : Nat) (one many : String) : String :=
  if count == 1 then one else many

def quantity (count : Nat) (one many : String) : String :=
  toString count ++ " " ++ plural count one many

def severityStyle : Severity → Style
  | .error => .boldRed
  | .warning => .boldYellow

def diagnosticText (colored : Bool) (diagnostic : Diagnostic) : String :=
  (severityStyle diagnostic.severity).paint colored diagnostic.severity.name ++
    Style.dimmedCyan.paint colored ("[" ++ diagnostic.rule ++ "]") ++ ": " ++ diagnostic.message ++
    "\n  " ++ Style.blue.paint colored "-->" ++ " " ++ diagnostic.file ++
    (match diagnostic.key with
      | some key => " (" ++ key ++ ")"
      | none => "") ++ "\n\n"

/-- A line that reports success. -/
def successLine (colored : Bool) (text : String) : String :=
  Style.green.paint colored successMark ++ " " ++ Style.green.paint colored text ++ "\n"

def extent (entries languages : Nat) (separator : String) : String :=
  quantity entries "entry" "entries" ++ separator ++ quantity languages "language" "languages"

def branchText : Branch → String
  | .conditional condition => "when " ++ condition
  | .base => "base"
  | .fallback => "fallback"

def previewText (colored : Bool) (locale : String) (preview : Preview) : String :=
  let origin := preview.language ++ ", " ++ branchText preview.branch
  preview.text ++ "\n  " ++ Style.blue.paint colored "=" ++ " " ++
    Style.bold.paint colored "note:" ++ " " ++ (if locale.isEmpty then "<unset>" else locale) ++
    " " ++ Style.dimmed.paint colored "->" ++ " (" ++ Style.dimmed.paint colored origin ++ ")\n"

def summaryText (colored : Bool) : Summary → String
  | .generated path changed entries languages =>
      successLine colored ((if changed then "Generated" else "Up to date") ++ " " ++ path ++ " (" ++
        extent entries languages ", " ++ ")")
  | .printed source => source
  | .checked entries languages untranslated fresh =>
      if untranslated > 0 || fresh == some false then ""
      else successLine colored ("Checked " ++ extent entries languages " in ")
  | .previewed locale preview => previewText colored locale preview
  | .initialized true => successLine colored ("Created " ++ Settings.fileName)
  | .initialized false => ""
  | .stopped => ""

/-- The last line counts the diagnostics, if there are any. -/
def problemText (colored : Bool) (report : Report) : String :=
  let errors := report.count .error
  let warnings := report.count .warning
  if errors + warnings > 0 then
    Style.red.paint colored failureMark ++ " " ++
      quantity (errors + warnings) "problem" "problems" ++ " (" ++ toString errors ++ " " ++
      Style.red.paint colored (plural errors "error" "errors") ++ ", " ++
      toString warnings ++ " " ++
      Style.yellow.paint colored (plural warnings "warning" "warnings") ++ ")\n"
  else ""

def print (colored : Bool) (report : Report) : Printed :=
  ⟨String.join (report.diagnostics.map (diagnosticText colored)) ++
      summaryText colored report.summary ++ report.problemText colored,
    if report.summary == .initialized false then
      "Error: " ++ Settings.fileName ++ " already exists\n"
    else ""⟩

end Report

end Phrasebook
