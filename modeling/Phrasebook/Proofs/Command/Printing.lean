/-
This file spells out the texts that commands print. The main statements are that reports print
just these texts, with and without the styles of a terminal.
-/

import Phrasebook.Command.Report
import Phrasebook.Proofs.Lists

namespace Phrasebook

/-- A text between the sequences that begin and end a style, or the text alone. -/
def styled (colored : Bool) (parameters text : String) : String :=
  if colored then "\x1b[" ++ parameters ++ "m" ++ text ++ "\x1b[0m" else text

@[simp] theorem styled_false (parameters text : String) : styled false parameters text = text := by
  simp [styled]

/-- A number and its noun. -/
def counted (number : Nat) (one many : String) : String :=
  toString number ++ " " ++ if number = 1 then one else many

/-- The line that reports success. -/
def lineOfSuccess (colored : Bool) (shown : String) : String :=
  styled colored "32" "✓" ++ " " ++ styled colored "32" shown ++ "\n"

/-- The line that counts what was found. -/
def lineOfProblems (colored : Bool) (total errors warnings : Nat) : String :=
  styled colored "31" "✘" ++ " " ++ counted total "problem" "problems" ++ " (" ++
    toString errors ++ " " ++ styled colored "31" (if errors = 1 then "error" else "errors") ++
      ", " ++ toString warnings ++ " " ++
        styled colored "33" (if warnings = 1 then "warning" else "warnings") ++ ")\n"

/-- What is said of a catalog that leaves nothing to do. -/
def checkedText (catalog : Catalog) : String :=
  "Checked " ++ counted catalog.entries.length "entry" "entries" ++ " in " ++
    counted catalog.languages.length "language" "languages"

namespace Style

variable (style : Style) {text : List Char}

@[simp] theorem paint_false (text : String) : style.paint false text = text := by
  simp [paint]

theorem resume_cons {character : Char} {rest : List Char}
    (noReset : ¬reset <+: character :: rest) :
    style.resume (character :: rest) = character :: style.resume rest := by
  apply resume.eq_3
  rintro others rfl rfl
  exact noReset ⟨others, rfl⟩

/-- A text without escape sequences stays as it is. -/
theorem resume_of_free (free : '\x1b' ∉ text) : style.resume text = text := by
  induction text with
  | nil => rfl
  | cons character rest inductionHypothesis =>
      rw [List.mem_cons, not_or] at free
      have noReset : ¬reset <+: character :: rest := by
        intro isReset
        exact free.1 (List.cons_prefix_cons.mp isReset).1
      rw [resume_cons style noReset, inductionHypothesis free.2]

theorem paint_eq (colored : Bool) {text : String} (free : '\x1b' ∉ text.toList) :
    style.paint colored text = styled colored style.parameters text := by
  cases colored with
  | false => rw [paint_false, styled_false]
  | true =>
      rw [paint, if_pos rfl, styled, if_pos rfl, resume_of_free style free, ← String.toList_inj]
      simp [start, reset]

end Style

namespace Report

theorem plural_eq (number : Nat) (one many : String) :
    plural number one many = if number = 1 then one else many := by
  simp [plural]

theorem quantity_eq (number : Nat) (one many : String) :
    quantity number one many = counted number one many := by
  rw [quantity, plural_eq, counted]

/-- Nouns hold no escape sequence. -/
theorem not_mem_noun (number : Nat) {one many : String} (isOne : '\x1b' ∉ one.toList)
    (isMany : '\x1b' ∉ many.toList) : '\x1b' ∉ (if number = 1 then one else many).toList := by
  split
  · exact isOne
  · exact isMany

/-- Neither do digits. -/
theorem not_mem_counted (number : Nat) (one many : String) (isOne : '\x1b' ∉ one.toList)
    (isMany : '\x1b' ∉ many.toList) : '\x1b' ∉ (counted number one many).toList := by
  have isNumber : '\x1b' ∉ Nat.toDigits 10 number := by
    intro member
    exact absurd (Nat.isDigit_of_mem_toDigits (by decide) (by decide) member) (by decide)
  simp [counted, isNumber, not_mem_noun number isOne isMany]

theorem successLine_eq (colored : Bool) {text : String} (free : '\x1b' ∉ text.toList) :
    successLine colored text = lineOfSuccess colored text := by
  have isMark : '\x1b' ∉ successMark.toList := by decide
  rw [successLine, Style.paint_eq _ colored free, Style.paint_eq _ colored isMark]
  rfl

theorem summaryText_checked (colored : Bool) (catalog : Catalog) (untranslated : Nat)
    (fresh : Option Bool) :
    summaryText colored
        (.checked catalog.entries.length catalog.languages.length untranslated fresh) =
      if untranslated > 0 || fresh == some false then ""
      else lineOfSuccess colored (checkedText catalog) := by
  have isEntries := not_mem_counted catalog.entries.length "entry" "entries"
    (by decide) (by decide)
  have isLanguages := not_mem_counted catalog.languages.length "language" "languages"
    (by decide) (by decide)
  have isText : "Checked " ++ extent catalog.entries.length catalog.languages.length " in " =
      checkedText catalog := by
    rw [extent, quantity_eq, quantity_eq, ← String.append_assoc, ← String.append_assoc,
      checkedText]
  rw [← successLine_eq colored (by simp [checkedText, isEntries, isLanguages]), ← isText]
  rfl

/-- Every diagnostic is an error or a warning. -/
theorem count_error_add_count_warning (report : Report) :
    report.count .error + report.count .warning = report.diagnostics.length := by
  rw [List.length_eq_length_filter_add (·.severity == .error), count, count]
  congr 2
  apply List.filter_congr
  intro diagnostic _
  cases diagnostic.severity <;> rfl

theorem problemText_eq (colored : Bool) (report : Report) :
    report.problemText colored = if report.diagnostics = [] then ""
      else lineOfProblems colored report.diagnostics.length (report.count .error)
        (report.count .warning) := by
  have isMark : '\x1b' ∉ failureMark.toList := by decide
  unfold problemText
  dsimp only
  rw [count_error_add_count_warning]
  by_cases none : report.diagnostics = []
  · rw [if_pos none, none]
    rfl
  · rw [if_neg none, if_pos (List.length_pos_iff.mpr none), quantity_eq, plural_eq, plural_eq,
      Style.paint_eq _ colored isMark,
      Style.paint_eq _ colored (not_mem_noun _ (by decide) (by decide)),
      Style.paint_eq _ colored (not_mem_noun _ (by decide) (by decide))]
    rfl

end Report

/-- What is printed of a finding, and whether it is an error. -/
structure Notice where
  isError : Bool
  text : String

namespace Notice

/-- The output is not what would be generated. -/
def stale (colored : Bool) (output : String) : Notice where
  isError := true
  text := styled colored "1;31" "error" ++ styled colored "2;36" "[stale-output]" ++
    ": generated code is out of date, run `locgen generate`\n  " ++ styled colored "34" "-->" ++
    " " ++ output ++ "\n\n"

/-- There is no output to be read. -/
def missing (colored : Bool) (output : String) : Notice where
  isError := false
  text := styled colored "1;33" "warning" ++ styled colored "2;36" "[missing-output]" ++
    ": generated code does not exist yet\n  " ++ styled colored "34" "-->" ++ " " ++ output ++
    "\n\n"

/-- An entry has no text of its own in a language. -/
def untranslated (colored : Bool) (input default : String) (borrowed : Entry × String) :
    Notice where
  isError := false
  text := styled colored "1;33" "warning" ++ styled colored "2;36" "[untranslated]" ++
    ": no `" ++ borrowed.2 ++ "` translation, falls back to `" ++ default ++ "`\n  " ++
    styled colored "34" "-->" ++ " " ++ input ++ " (" ++ borrowed.1.key.display ++ ")\n\n"

def ofDiagnostic (colored : Bool) (diagnostic : Diagnostic) : Notice :=
  ⟨diagnostic.severity == .error, Report.diagnosticText colored diagnostic⟩

/-- The text of a diagnostic whose rule holds no escape sequence. -/
theorem diagnosticText_eq (colored : Bool) {diagnostic : Diagnostic}
    (free : '\x1b' ∉ diagnostic.rule.toList) :
    Report.diagnosticText colored diagnostic =
      styled colored (if diagnostic.severity = .error then "1;31" else "1;33")
          diagnostic.severity.name ++
        styled colored "2;36" ("[" ++ diagnostic.rule ++ "]") ++ ": " ++ diagnostic.message ++
        "\n  " ++ styled colored "34" "-->" ++ " " ++ diagnostic.file ++
        (diagnostic.key.elim "" fun key => " (" ++ key ++ ")") ++ "\n\n" := by
  have isName : '\x1b' ∉ diagnostic.severity.name.toList := by
    cases diagnostic.severity <;> decide
  have isRule : '\x1b' ∉ ("[" ++ diagnostic.rule ++ "]").toList := by
    simpa using free
  rw [Report.diagnosticText, Style.paint_eq _ colored isName, Style.paint_eq _ colored isRule,
    Style.paint_eq _ colored (by decide)]
  cases diagnostic.key <;> cases diagnostic.severity <;> rfl

theorem ofDiagnostic_staleOutput (colored : Bool) (output : String) :
    ofDiagnostic colored (.staleOutput output) = stale colored output := by
  have free : '\x1b' ∉ "stale-output".toList := by decide
  rw [ofDiagnostic, diagnosticText_eq colored free, stale, mk.injEq]
  refine ⟨rfl, ?_⟩
  rw [← String.toList_inj]
  simp [Diagnostic.staleOutput, Severity.name, backquote]

theorem ofDiagnostic_missingOutput (colored : Bool) (output : String) :
    ofDiagnostic colored (.missingOutput output) = missing colored output := by
  have free : '\x1b' ∉ "missing-output".toList := by decide
  rw [ofDiagnostic, diagnosticText_eq colored free, missing, mk.injEq]
  refine ⟨rfl, ?_⟩
  rw [← String.toList_inj]
  simp [Diagnostic.missingOutput, Severity.name]

theorem ofDiagnostic_untranslated (colored : Bool) (input default : String)
    (borrowed : Entry × String) :
    ofDiagnostic colored (.untranslated input borrowed.1.key.display borrowed.2 default) =
      untranslated colored input default borrowed := by
  have free : '\x1b' ∉ "untranslated".toList := by decide
  rw [ofDiagnostic, diagnosticText_eq colored free, untranslated, mk.injEq]
  refine ⟨rfl, ?_⟩
  rw [← String.toList_inj]
  simp [Diagnostic.untranslated, Severity.name, backquote]

end Notice

end Phrasebook
