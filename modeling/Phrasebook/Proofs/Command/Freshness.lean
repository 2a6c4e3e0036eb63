/-
This file compares what the commands say of an output with what it holds. The main statements are
that generated code is found up to date by every command, and which outputs a check reports.
-/

import Phrasebook.Proofs.Catalog.Reading
import Phrasebook.Proofs.Command.Output
import Phrasebook.Proofs.Command.Printing

namespace Phrasebook

open Phrasebook.Path

/-- A diagnostic of the report has the rule. -/
def Report.Mentions (report : Report) (rule : String) : Prop :=
  ∃ diagnostic ∈ report.diagnostics, diagnostic.rule = rule

namespace Command

variable {disk changed : Disk} {selection : Selection} {additions : Additions} {context : Context}
  {artifacts : Code.Artifacts}

theorem of_mem_untranslated {file : String} {catalog : Catalog} {diagnostic : Diagnostic}
    (member : diagnostic ∈ untranslated file catalog) :
    diagnostic.rule = "untranslated" ∧ diagnostic.severity = .warning := by
  obtain ⟨pair, _, rfl⟩ := List.mem_map.mp member
  exact ⟨rfl, rfl⟩

/-- Missing translations are only warnings, so the other findings decide how a check ends. -/
theorem finish_untranslated {summary : Summary} {file : String} {catalog : Catalog}
    {findings : List Diagnostic} {report : Report}
    (isReport : report =
      .finish summary (untranslated file catalog ++ findings) .success .attention) :
    (report.status = if findings.any (·.severity == .error) then .attention else .success) ∧
      ∀ rule, rule ≠ "untranslated" →
        (report.Mentions rule ↔ ∃ diagnostic ∈ findings, diagnostic.rule = rule) := by
  subst isReport
  have noError : (untranslated file catalog).any (·.severity == .error) = false := by
    rw [List.any_eq_false]
    intro diagnostic member
    rw [(of_mem_untranslated member).2]
    decide
  refine ⟨?_, ?_⟩
  · rw [Report.finish, List.any_append, noError, Bool.false_or]
    rfl
  · intro rule differs
    have kept : ∀ diagnostic, diagnostic ∈ Diagnostic.sort (untranslated file catalog ++ findings) ↔
        diagnostic ∈ untranslated file catalog ∨ diagnostic ∈ findings := by
      intro diagnostic
      rw [Diagnostic.sort, List.mem_mergeSort, List.mem_append]
    constructor
    · intro mentions
      obtain ⟨diagnostic, member, rfl⟩ := mentions
      rcases (kept diagnostic).mp member with isMissing | isFinding
      · exact absurd (of_mem_untranslated isMissing).1 differs
      · exact ⟨diagnostic, isFinding, rfl⟩
    · intro mentions
      obtain ⟨diagnostic, isFinding, isRule⟩ := mentions
      exact ⟨diagnostic, (kept diagnostic).mpr (.inr isFinding), isRule⟩

/-- How a check ends follows from what is read of the output. -/
theorem finish_inspect {summary : Summary} {file path source : String} {catalog : Catalog}
    {result : Except FileFault String} {report : Report}
    (isReport : report = .finish summary
      (untranslated file catalog ++ (inspect path source result).2) .success .attention) :
    (report.Mentions "stale-output" ↔ ∃ text, result = .ok text ∧ text ≠ source) ∧
      (report.Mentions "missing-output" ↔ ∀ text, result ≠ .ok text) ∧
        (report.status = .attention ↔ report.Mentions "stale-output") ∧
          (report.status = .success ↔ ¬report.Mentions "stale-output") := by
  obtain ⟨isStatus, mentions⟩ := finish_untranslated isReport
  have stale := mentions "stale-output" (by decide)
  have missing := mentions "missing-output" (by decide)
  rw [isStatus, stale, missing]
  cases result with
  | error fault => simp [inspect, Diagnostic.missingOutput]
  | ok text =>
      by_cases same : text = source
      · simp [inspect, same]
      · simp [inspect, same, Diagnostic.staleOutput]

theorem execute_eq (environment : Environment) (colored : Bool) {command : Command}
    {result : Except Failure Report}
    (performed : disk.perform (command.run environment) = (result, changed)) :
    disk.execute environment colored command = (.ofResult colored result, changed) := by
  rw [Disk.execute, performed]

section

variable {environment : Environment} {colored : Bool} {catalog : Catalog} {source : String}

theorem execute_generate_stdout
    (loaded : disk.perform (Context.load selection) = (.ok context, disk))
    (compiled : context.compile additions = .ok (catalog, source)) :
    disk.execute environment colored (.generate selection additions true) =
      (⟨⟨source, ""⟩, .success⟩, disk) := by
  rw [execute_eq environment colored (perform_runGenerate_stdout loaded compiled)]
  change (Ending.mk _ _, disk) = _
  rw [Report.print_finish_nil colored (by simp)]
  rfl

end

/-- A project with settings, whose output is no text. -/
def houseDisk : Disk where
  entries :=
    [(["house".toList], .directory),
      (["house".toList, "Localized.yml".toList], .file Catalog.houseSource.toUTF8),
      (["house".toList, ".locgenrc.json".toList],
        .file "\x7b\"output\":\"gen/house.rs\",\"embedSource\":true\x7d".toUTF8),
      (["house".toList, "gen".toList], .directory),
      (["house".toList, "gen".toList, "house.rs".toList], .file ⟨#[255]⟩)]
  workingDirectory := ["house".toList]

def houseContext : Context :=
  ⟨{ output := "gen/house.rs", embedSource := true }, "Localized.yml", "gen/house.rs",
    Catalog.houseSource⟩

/-- The code of the project. -/
def houseArtifacts : Code.Artifacts :=
  Code.generate Catalog.houseCatalog (houseContext.options {}) (some Catalog.houseSource)

theorem stands_houseDisk : houseDisk.Stands := by
  refine ⟨⟨?_, ?_⟩, rfl⟩
  · intro name member
    rw [List.mem_singleton.mp member]
    exact ⟨by decide, by decide, by decide⟩
  · intro outer isPrefix differs
    have isRoot : outer = [] := by
      have within : outer <+: [] ++ ["house".toList] := isPrefix
      obtain same | further := List.prefix_concat_iff.mp within
      · exact absurd same differs
      · exact List.prefix_nil.mp further
    rw [isRoot]
    rfl

theorem load_houseDisk :
    houseDisk.perform (Context.load {}) = (.ok houseContext, houseDisk) := by
  have isProject : (houseDisk.run (Project.load "/house")).1 =
      .ok ⟨houseContext.settings, "/house", true⟩ := by
    decide +kernel
  have loaded : houseDisk.run (Project.load "/house") = (_, houseDisk) :=
    Prod.ext isProject (Project.run_load houseDisk "/house")
  exact Context.load_eq_ok_iff.mpr ⟨rfl, "/house", _, rfl, loaded, rfl, rfl, rfl, rfl⟩

theorem compile_houseContext :
    Code.compile houseContext.source (houseContext.options {}) = .ok houseArtifacts :=
  Outcome.bind_eq_ok_iff.mpr ⟨_, Catalog.parse_houseSource _, rfl⟩

/-- What a check reports of the output for the code: it is stale exactly where a text other than
the code can be read there, and missing exactly where no text can be read. -/
structure Checked (disk : Disk) (output code : String) (report : Report) : Prop where
  stale : report.Mentions "stale-output" ↔ ∃ place content,
    disk.find output = .ok (place, .file content) ∧
      (String.fromUTF8? content).isSome ∧ content ≠ code.toUTF8
  missing : report.Mentions "missing-output" ↔ ¬∃ place content,
    disk.find output = .ok (place, .file content) ∧ (String.fromUTF8? content).isSome
  attention : report.status.code = 1 ↔ report.Mentions "stale-output"
  success : report.status.code = 0 ↔ ¬report.Mentions "stale-output"

/-- A check compares the output with the code that a generation prints. -/
theorem check_reports (environment : Environment)
    (loaded : disk.perform (Context.load selection) = (.ok context, disk))
    (compiled : Code.compile context.source (context.options additions) = .ok artifacts) :
    (∃ report, disk.perform (run environment (.check selection additions)) = (.ok report, disk) ∧
      Checked disk context.output artifacts.source report) ∧
      ∀ colored, disk.execute environment colored (.generate selection additions true) =
        (⟨⟨artifacts.source, ""⟩, .success⟩, disk) := by
  obtain ⟨catalog, isCatalog⟩ := Context.exists_compile compiled
  obtain ⟨report, checked, isReport⟩ :
      ∃ report, disk.perform (runCheck selection additions) = (.ok report, disk) ∧ report = _ :=
    ⟨_, perform_runCheck loaded isCatalog, rfl⟩
  obtain ⟨stale, missing, attention, success⟩ := finish_inspect isReport
  refine ⟨⟨report, checked, ?_, ?_, ?_, ?_⟩, ?_⟩
  · have injective (text : String) :
        text.toUTF8 = artifacts.source.toUTF8 ↔ text = artifacts.source :=
      String.toByteArray_inj
    rw [stale, ← Disk.exists_readText_iff]
    simp only [ne_eq, injective]
  · rw [missing, ← not_exists, not_iff_not]
    have readable := @Disk.exists_readText_iff disk context.output fun _ => True
    simpa using readable
  · rw [← attention]
    cases report.status <;> decide
  · rw [← success]
    cases report.status <;> decide
  · exact fun colored => execute_generate_stdout loaded isCatalog

theorem check_reports_house :
    (∃ report, houseDisk.perform (run (fun _ => none) (.check {} {})) = (.ok report, houseDisk) ∧
      Checked houseDisk "gen/house.rs" houseArtifacts.source report) ∧
      ∀ colored, houseDisk.execute (fun _ => none) colored (.generate {} {} true) =
        (⟨⟨houseArtifacts.source, ""⟩, .success⟩, houseDisk) :=
  check_reports (fun _ => none) load_houseDisk compile_houseContext

/-- An output that is no text is not the code, but it is reported as missing. -/
theorem not_check_reports : ¬∀ (disk : Disk) (environment : Environment) (selection : Selection)
    (additions : Additions) (context : Context) (artifacts : Code.Artifacts) (report : Report)
    (place : Place) (content : ByteArray), disk.Stands →
      disk.perform (Context.load selection) = (.ok context, disk) →
      Code.compile context.source (context.options additions) = .ok artifacts →
      disk.perform (run environment (.check selection additions)) = (.ok report, disk) →
      disk.find context.output = .ok (place, .file content) →
      content ≠ artifacts.source.toUTF8 →
        report.Mentions "stale-output" ∧ report.status.code = 1 := by
  intro every
  -- the single byte 255 is no text, whatever the code is
  obtain ⟨catalog, compiled⟩ := Context.exists_compile compile_houseContext
  have notText : houseDisk.readText "gen/house.rs" = .error .notText := rfl
  have differs : (⟨#[255]⟩ : ByteArray) ≠ houseArtifacts.source.toUTF8 := by
    intro same
    have isText := fromUTF8?_eq_some_iff.mpr same
    cases isText
  obtain ⟨report, checked, isReport⟩ :
      ∃ report, houseDisk.perform (runCheck {} {}) = (.ok report, houseDisk) ∧ report = _ :=
    ⟨_, perform_runCheck load_houseDisk compiled, rfl⟩
  obtain ⟨stale, _⟩ := every houseDisk (fun _ => none) {} {} houseContext houseArtifacts report _ _
    stands_houseDisk load_houseDisk compile_houseContext checked rfl differs
  obtain ⟨text, isRead, _⟩ := (finish_inspect isReport).1.mp stale
  cases notText.symm.trans isRead

end Command

end Phrasebook
