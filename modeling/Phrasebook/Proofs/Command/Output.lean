/-
This file says what the commands do with the generated code. The main statement is that code which
was generated is printed, found up to date and checked as it was written.
-/

import Phrasebook.Command.Program
import Phrasebook.Proofs.Command.Context

namespace Phrasebook

open Phrasebook.Path

namespace Context

variable {context : Context} {additions : Additions}

/-- What the commands compile is the source of the catalog with the options in effect. -/
theorem compile_eq_ok {catalog : Catalog} {source : String}
    (compiled : context.compile additions = .ok (catalog, source)) :
    Catalog.parse (context.options additions).strict context.source = .ok catalog ∧
      ∃ artifacts, Code.compile context.source (context.options additions) = .ok artifacts ∧
        artifacts.source = source := by
  obtain ⟨found, parsed, same⟩ := Outcome.bind_eq_ok_iff.mp compiled
  cases same
  exact ⟨parsed, _, Outcome.bind_eq_ok_iff.mpr ⟨catalog, parsed, rfl⟩, rfl⟩

theorem exists_compile {artifacts : Code.Artifacts}
    (compiled : Code.compile context.source (context.options additions) = .ok artifacts) :
    ∃ catalog, context.compile additions = .ok (catalog, artifacts.source) := by
  obtain ⟨catalog, parsed, same⟩ := Outcome.bind_eq_ok_iff.mp compiled
  cases same
  exact ⟨catalog, Outcome.bind_eq_ok_iff.mpr ⟨catalog, parsed, rfl⟩⟩

end Context

/-- How a command ends on a disk, and the disk that it leaves. -/
def Disk.execute (disk : Disk) (environment : Environment) (colored : Bool) (command : Command) :
    Ending × Disk :=
  let (result, changed) := disk.perform (command.run environment)
  (.ofResult colored result, changed)

namespace Report

/-- Without diagnostics only the summary is printed. -/
theorem print_finish_nil (colored : Bool) {summary : Summary}
    (differs : summary ≠ .initialized false) :
    (finish summary [] .success .failure).print colored = ⟨summaryText colored summary, ""⟩ := by
  have isSort : Diagnostic.sort [] = [] := List.mergeSort_nil
  simp [print, finish, isSort, problemText, count, differs]

end Report

namespace Command

variable {disk changed : Disk} {path source : String}

/-- Writes the output, after the directories that are to contain it. -/
def replaceOutput (path source : String) : ExceptT Failure (StateM Disk) Bool := do
  if let some parent := Path.parent? path then
    Failure.attempt (.directoryNotCreated parent) (FileAccess.createDirectories parent)
  Failure.attempt (.outputNotWritten path) (FileAccess.writeText path source)
  return true

/-- The output is written only where it does not hold the code already. -/
theorem perform_writeOutput (disk : Disk) (path source : String) :
    disk.perform (writeOutput path source) =
      if disk.readText path = .ok source then (.ok false, disk)
      else disk.perform (replaceOutput path source) := by
  simp only [writeOutput, Disk.perform_bind, Disk.perform_lift, Disk.run_readText]
  cases isRead : disk.readText path with
  | error fault =>
      rw [if_neg (by simp)]
      unfold replaceOutput
      cases parent? path with
      | none => rfl
      | some parent => rfl
  | ok text =>
      by_cases same : text = source
      · rw [if_pos (by simpa using same), same]
        simp only [beq_self_eq_true]
        rfl
      · rw [if_neg (by simpa using same), replaceOutput]
        simp only [beq_false_of_ne same]
        cases parent? path with
        | none => rfl
        | some parent => rfl

theorem run_writeText (disk : Disk) (path text : String) :
    disk.run (FileAccess.writeText path text) =
      match disk.writeText path text with
      | .ok changed => (.ok (), changed)
      | .error fault => (.error fault, disk) := rfl

section

variable {selection : Selection} {additions : Additions} {context : Context} {catalog : Catalog}

/-- Code that is printed is not written. -/
theorem perform_runGenerate_stdout
    (loaded : disk.perform (Context.load selection) = (.ok context, disk))
    (compiled : context.compile additions = .ok (catalog, source)) :
    disk.perform (runGenerate selection additions true) =
      (.ok (.finish (.printed source) [] .success .failure), disk) := by
  rw [runGenerate, Disk.perform_bind, loaded]
  simp only [compiled]
  rfl

theorem perform_runCheck
    (loaded : disk.perform (Context.load selection) = (.ok context, disk))
    (compiled : context.compile additions = .ok (catalog, source)) :
    disk.perform (runCheck selection additions) =
      (.ok (.finish (.checked catalog.entries.length catalog.languages.length
          (untranslated context.input catalog).length
          (inspect context.output source (disk.readText context.output)).1)
        (untranslated context.input catalog ++
          (inspect context.output source (disk.readText context.output)).2)
        .success .attention), disk) := by
  rw [runCheck, Disk.perform_bind, loaded]
  simp only [compiled]
  rfl

end

end Command

end Phrasebook
