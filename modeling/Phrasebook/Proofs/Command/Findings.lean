/-
This file says what a check prints. The main statement is that its diagnostics are complete and
ordered, and that the lines behind them and the exit code agree with them.
-/

import Phrasebook.Proofs.Catalog.Comparison
import Phrasebook.Proofs.Catalog.EntryKey
import Phrasebook.Proofs.Command.Freshness
import Phrasebook.Proofs.Sorting

namespace Phrasebook

namespace Catalog

/-- The entries and languages without a text of their own, by the keys of the entries and for each
entry as the languages stand in the catalog. -/
structure ListsMissing (catalog : Catalog) (missing : List (Entry × String)) : Prop where
  mem_iff : ∀ entry language, (entry, language) ∈ missing ↔ entry ∈ catalog.entries ∧
    language ∈ catalog.languages ∧ (entry.wording? language).any (·.isFallback)
  ordered : missing.Pairwise fun first second =>
    first.1.key.display < second.1.key.display ∨
      first.1 = second.1 ∧ catalog.languages.idxOf first.2 < catalog.languages.idxOf second.2

theorem ListsMissing.nodup {catalog : Catalog} {missing : List (Entry × String)}
    (lists : catalog.ListsMissing missing) : missing.Nodup := by
  refine lists.ordered.imp ?_
  rintro first second before rfl
  rcases before with less | ⟨_, less⟩
  · exact String.lt_irrefl _ less
  · exact Nat.lt_irrefl _ less

/-- Entries by the canonical texts of their keys. -/
def orderMissing (first second : Entry × String) : Ordering :=
  compare first.1.key.display second.1.key.display

instance : Std.TransCmp orderMissing :=
  inferInstanceAs (Std.TransCmp (compareOn fun missing : Entry × String => missing.1.key.display))

theorem orderMissing_eq_lt_iff {first second : Entry × String} :
    orderMissing first second = .lt ↔ first.1.key.display < second.1.key.display :=
  compareOfLessAndEq_eq_lt

theorem orderMissing_eq_eq_iff {first second : Entry × String} :
    orderMissing first second = .eq ↔ first.1.key.display = second.1.key.display :=
  Std.LawfulEqOrd.compare_eq_iff_eq

variable {strict : Bool} {pairs : List Pair} {drafts : List Draft} {catalog : Catalog}

/-- Entries have different canonical texts. -/
theorem Reads.display_injective (reads : Reads strict pairs drafts catalog) {first second : Entry}
    (isFirst : first ∈ catalog.entries) (isSecond : second ∈ catalog.entries)
    (same : first.key.display = second.key.display) : first = second := by
  have splits : ∀ entry ∈ catalog.entries,
      EntryKey.split entry.key.display = .ok entry.key := by
    intro entry member
    obtain ⟨draft, isDraft, completed⟩ := Lists.exists_of_mem_right reads.entries member
    obtain ⟨pair, _, readsDraft⟩ := Lists.exists_of_mem_right reads.each isDraft
    obtain ⟨base, _, isComplete⟩ := readsDraft.complete_eq catalog.languages
    cases isComplete.symm.trans completed
    exact EntryKey.split_display readsDraft.key
  have sameKey := splits first isFirst
  rw [same, splits second isSecond] at sameKey
  exact List.inj_on_of_nodup_map reads.nodup_keys isFirst isSecond (Except.ok.inj sameKey).symm

/-- Entries are listed one after another, and the languages of each in order. -/
theorem Reads.pairwise_untranslated (reads : Reads strict pairs drafts catalog) :
    catalog.untranslated.Pairwise fun first second =>
      orderMissing first second = .eq → first.1 = second.1 ∧
        catalog.languages.idxOf first.2 < catalog.languages.idxOf second.2 := by
  rw [untranslated, List.pairwise_flatMap]
  constructor
  · intro entry _
    rw [List.pairwise_map]
    have ordered := Lists.pairwise_idxOf_of_nodup reads.nodup_languages
    exact (ordered.filter _).imp fun before _ => ⟨rfl, before⟩
  · apply reads.nodup_entries.imp_of_mem
    intro first second isFirst isSecond differs missing isMissing other isOther same
    obtain ⟨language, _, rfl⟩ := List.mem_map.mp isMissing
    obtain ⟨further, _, rfl⟩ := List.mem_map.mp isOther
    exact absurd (reads.display_injective isFirst isSecond (orderMissing_eq_eq_iff.mp same)) differs

theorem Reads.listsMissing (reads : Reads strict pairs drafts catalog) :
    catalog.ListsMissing (Sorting.sort orderMissing catalog.untranslated) := by
  constructor
  · intro entry language
    rw [(Sorting.sort_perm _).mem_iff, mem_untranslated_iff]
  · refine (Sorting.pairwise_sort_of_tied reads.pairwise_untranslated).imp ?_
    intro first second inOrder
    rw [orderMissing_eq_lt_iff] at inOrder
    exact inOrder.imp_right And.right

end Catalog

namespace Diagnostic

/-- The warning that an entry has no text of its own in a language. -/
def ofMissing (file : String) (catalog : Catalog) (missing : Entry × String) : Diagnostic :=
  .untranslated file missing.1.key.display missing.2 catalog.defaultLanguage

instance : Std.TransCmp order :=
  inferInstanceAs (Std.TransCmp (compareLex
    (compareOn fun diagnostic : Diagnostic => diagnostic.severity.rank)
    (compareLex (compareOn key) (compareOn rule))))

theorem order_ofMissing {file : String} {catalog : Catalog} {first second : Entry × String} :
    order (ofMissing file catalog first) (ofMissing file catalog second) =
      Catalog.orderMissing first second := by
  have sameRule : compare "untranslated" "untranslated" = .eq := Std.ReflOrd.compare_self
  change (compare 1 1).then
    ((compare (some first.1.key.display) (some second.1.key.display)).then
      (compare "untranslated" "untranslated")) = _
  rw [sameRule, Ordering.then_eq]
  rfl

theorem sort_ofMissing (file : String) (catalog : Catalog) (missing : List (Entry × String)) :
    Sorting.sort order (missing.map (ofMissing file catalog)) =
      (Sorting.sort Catalog.orderMissing missing).map (ofMissing file catalog) := by
  symm
  apply List.map_mergeSort
  intro first _ second _
  rw [order_ofMissing]

end Diagnostic

namespace Report

theorem print_eq (colored : Bool) {report : Report}
    (differs : report.summary ≠ .initialized false) :
    report.print colored =
      ⟨String.join (report.diagnostics.map (diagnosticText colored)) ++
        summaryText colored report.summary ++ report.problemText colored, ""⟩ := by
  simp [print, differs]

end Report

namespace Notice

variable (colored : Bool) (diagnostics : List Diagnostic)

theorem map_text_ofDiagnostic :
    (diagnostics.map (ofDiagnostic colored)).map text =
      diagnostics.map (Report.diagnosticText colored) := by
  rw [List.map_map]
  rfl

theorem exists_isError_iff :
    (∃ notice ∈ diagnostics.map (ofDiagnostic colored), notice.isError) ↔
      ∃ diagnostic ∈ diagnostics, diagnostic.severity = .error := by
  simp [ofDiagnostic]

theorem length_filter_isError :
    ((diagnostics.map (ofDiagnostic colored)).filter (·.isError)).length =
      (diagnostics.filter (·.severity == .error)).length := by
  rw [List.filter_map, List.length_map]
  rfl

theorem length_filter_not_isError :
    ((diagnostics.map (ofDiagnostic colored)).filter (!·.isError)).length =
      (diagnostics.filter (·.severity == .warning)).length := by
  rw [List.filter_map, List.length_map]
  congr 2
  funext diagnostic
  change (!(diagnostic.severity == .error)) = (diagnostic.severity == .warning)
  cases diagnostic.severity <;> rfl

end Notice

/-- What a check prints behind what it found and how it ends: with a line of success where nothing
is left to do, a line that counts what was found if there is anything, and the code of failure
where one of it is an error. -/
structure Concludes (colored : Bool) (catalog : Catalog) (clean : Prop) (notices : List Notice)
    (success problems : String) (status : Status) : Prop where
  success : clean ∧ success = lineOfSuccess colored (checkedText catalog) ∨ ¬clean ∧ success = ""
  problems : notices ≠ [] ∧ problems = lineOfProblems colored notices.length
      (notices.filter (·.isError)).length (notices.filter (!·.isError)).length ∨
    notices = [] ∧ problems = ""
  failed : status.code = 1 ↔ ∃ notice ∈ notices, notice.isError
  succeeded : status.code = 0 ↔ ¬∃ notice ∈ notices, notice.isError

namespace Command

/-- What a check finds of its output: nothing where a file holds the code, that it is stale where a
file holds another text, and that it is missing where no file holds a text. -/
inductive Finds (colored : Bool) (disk : Disk) (output code : String) : List Notice → Prop where
  | fresh {place : Place} (found : disk.find output = .ok (place, .file code.toUTF8)) :
      Finds colored disk output code []
  | stale {place : Place} {text : String}
      (found : disk.find output = .ok (place, .file text.toUTF8)) (differs : text ≠ code) :
      Finds colored disk output code [.stale colored output]
  | missing (absent : ∀ (place : Place) (text : String),
      disk.find output ≠ .ok (place, .file text.toUTF8)) :
      Finds colored disk output code [.missing colored output]

variable {disk : Disk} {output code : String}

/-- What is read of the output is the code, another text or no text. -/
theorem inspect_cases (output code : String) (result : Except FileFault String) :
    result = .ok code ∧ inspect output code result = (some true, []) ∨
      (∃ text, result = .ok text ∧ text ≠ code ∧
        inspect output code result = (some false, [.staleOutput output])) ∨
      ∃ fault, result = .error fault ∧
        inspect output code result = (none, [.missingOutput output]) := by
  cases result with
  | error fault => exact .inr (.inr ⟨fault, rfl, rfl⟩)
  | ok text =>
      rw [inspect]
      by_cases same : text = code
      · exact .inl ⟨congrArg Except.ok same, if_pos (beq_iff_eq.mpr same)⟩
      · exact .inr (.inl ⟨text, rfl, same, if_neg (by simpa using same)⟩)

theorem finds_inspect (colored : Bool) (disk : Disk) (output code : String) :
    Finds colored disk output code
      ((inspect output code (disk.readText output)).2.map (.ofDiagnostic colored)) := by
  obtain ⟨isRead, found⟩ | ⟨text, isRead, differs, found⟩ | ⟨fault, unread, found⟩ :=
    inspect_cases output code (disk.readText output)
  · rw [found]
    obtain ⟨place, isFile⟩ := Disk.readText_eq_ok_iff.mp isRead
    exact .fresh isFile
  · rw [found, List.map_singleton, Notice.ofDiagnostic_staleOutput]
    obtain ⟨place, isFile⟩ := Disk.readText_eq_ok_iff.mp isRead
    exact .stale isFile differs
  · rw [found, List.map_singleton, Notice.ofDiagnostic_missingOutput]
    refine .missing fun place text isFile => ?_
    cases unread.symm.trans (Disk.readText_eq_ok_iff.mpr ⟨place, isFile⟩)

theorem mem_inspect {output code : String} {result : Except FileFault String}
    {finding : Diagnostic} (member : finding ∈ (inspect output code result).2) :
    finding = .staleOutput output ∨ finding = .missingOutput output := by
  obtain ⟨_, found⟩ | ⟨_, _, _, found⟩ | ⟨_, _, found⟩ := inspect_cases output code result
  · rw [found] at member
    exact absurd member List.not_mem_nil
  · rw [found] at member
    exact .inl (List.mem_singleton.mp member)
  · rw [found] at member
    exact .inr (List.mem_singleton.mp member)

theorem sort_inspect (output code : String) (result : Except FileFault String) :
    Sorting.sort Diagnostic.order (inspect output code result).2 =
      (inspect output code result).2 := by
  obtain ⟨_, found⟩ | ⟨_, _, _, found⟩ | ⟨_, _, found⟩ := inspect_cases output code result
  · rw [found]
    exact List.mergeSort_nil
  · rw [found]
    exact List.mergeSort_singleton _
  · rw [found]
    exact List.mergeSort_singleton _

/-- What is found of the output comes before all missing translations. -/
theorem sort_append_inspect (file output code : String) (catalog : Catalog)
    (result : Except FileFault String) :
    Diagnostic.sort (untranslated file catalog ++ (inspect output code result).2) =
      (inspect output code result).2 ++
        (Sorting.sort Catalog.orderMissing catalog.untranslated).map
          (.ofMissing file catalog) := by
  have before : ∀ finding ∈ (inspect output code result).2,
      ∀ warning ∈ untranslated file catalog, Diagnostic.order finding warning = .lt := by
    intro finding isFinding warning isWarning
    obtain ⟨missing, _, rfl⟩ := List.mem_map.mp isWarning
    rcases mem_inspect isFinding with rfl | rfl
    · rfl
    · rfl
  have sorted := Sorting.sort_append before
  rw [sort_inspect] at sorted
  refine sorted.trans (congrArg ((inspect output code result).2 ++ ·) ?_)
  exact Diagnostic.sort_ofMissing file catalog catalog.untranslated

theorem inspect_eq_stale_iff (colored : Bool) (result : Except FileFault String) :
    (inspect output code result).1 = some false ↔ Notice.stale colored output ∈
      (inspect output code result).2.map (Notice.ofDiagnostic colored) := by
  obtain ⟨_, found⟩ | ⟨_, _, _, found⟩ | ⟨_, _, found⟩ := inspect_cases output code result
  · simp [found]
  · simp [found, Notice.ofDiagnostic_staleOutput]
  · simp [found, Notice.ofDiagnostic_missingOutput, Notice.stale, Notice.missing]

/-- The summary of a check reports success where nothing is left to do. -/
theorem summaryText_inspect (colored : Bool) (catalog : Catalog) (file : String)
    (result : Except FileFault String) {missing : List (Entry × String)}
    (perm : missing.Perm catalog.untranslated) :
    let clean := missing = [] ∧ Notice.stale colored output ∉
      (inspect output code result).2.map (Notice.ofDiagnostic colored)
    let text := Report.summaryText colored (.checked catalog.entries.length
      catalog.languages.length (untranslated file catalog).length (inspect output code result).1)
    clean ∧ text = lineOfSuccess colored (checkedText catalog) ∨ ¬clean ∧ text = "" := by
  have isLength : (untranslated file catalog).length = missing.length := by
    rw [untranslated, List.length_map, perm.length_eq]
  dsimp only
  rw [← inspect_eq_stale_iff, isLength, Report.summaryText_checked]
  by_cases none : missing = []
  · by_cases stale : (inspect output code result).1 = some false
    · simp [none, stale]
    · simp [none, stale]
  · have some : 0 < missing.length := List.length_pos_iff.mpr none
    simp [none, some]

theorem status_finish {summary : Summary} {diagnostics : List Diagnostic} {report : Report}
    (isReport : report = .finish summary diagnostics .success .attention) :
    (report.status.code = 1 ↔
        ∃ diagnostic ∈ report.diagnostics, diagnostic.severity = .error) ∧
      (report.status.code = 0 ↔
        ¬∃ diagnostic ∈ report.diagnostics, diagnostic.severity = .error) := by
  have mem_iff (diagnostic : Diagnostic) :
      diagnostic ∈ report.diagnostics ↔ diagnostic ∈ diagnostics := by
    rw [isReport]
    exact List.mem_mergeSort
  have any_iff : diagnostics.any (·.severity == .error) ↔
      ∃ diagnostic ∈ report.diagnostics, diagnostic.severity = .error := by
    simp only [List.any_eq_true, mem_iff, beq_iff_eq]
  rw [← any_iff]
  subst isReport
  rw [Report.finish]
  split
  · rename_i failed
    simp [failed, Status.max, Status.code]
  · rename_i noFailure
    simp [noFailure, Status.code]

variable {selection : Selection} {additions : Additions} {context : Context} {catalog : Catalog}

/-- A check prints what it finds of the output and then each missing translation once, by the keys
of the entries and in the order of the languages, and it ends as these findings say. -/
theorem check_prints (environment : Environment) (colored : Bool)
    (loaded : disk.perform (Context.load selection) = (.ok context, disk))
    (parsed : Catalog.parse (context.options additions).strict context.source = .ok catalog) :
    ∃ findings missing notices success problems status,
      Finds colored disk context.output
        (Code.generate catalog (context.options additions) (some context.source)).source findings ∧
      catalog.ListsMissing missing ∧
      notices = findings ++
        missing.map (.untranslated colored context.input catalog.defaultLanguage) ∧
      disk.execute environment colored (.check selection additions) =
        (⟨⟨String.join (notices.map Notice.text) ++ success ++ problems, ""⟩, status⟩, disk) ∧
      Concludes colored catalog (missing = [] ∧ .stale colored context.output ∉ findings)
        notices success problems status := by
  obtain ⟨pairs, drafts, _, reads⟩ := Catalog.parse_eq_ok_iff.mp parsed
  have compiled : context.compile additions = .ok (catalog, _) :=
    Outcome.bind_eq_ok_iff.mpr ⟨catalog, parsed, rfl⟩
  obtain ⟨report, checked, isReport⟩ :
      ∃ report, disk.perform (runCheck selection additions) = (.ok report, disk) ∧ report = _ :=
    ⟨_, perform_runCheck loaded compiled, rfl⟩
  generalize (Code.generate catalog (context.options additions) (some context.source)).source =
    code at isReport ⊢
  have isDiagnostics : report.diagnostics =
      (inspect context.output code (disk.readText context.output)).2 ++
        (Sorting.sort Catalog.orderMissing catalog.untranslated).map
          (.ofMissing context.input catalog) := by
    rw [isReport]
    exact sort_append_inspect context.input context.output code catalog _
  have isSummary := congrArg Report.summary isReport
  obtain ⟨failed, succeeded⟩ := status_finish isReport
  refine ⟨_, _, report.diagnostics.map (.ofDiagnostic colored),
    Report.summaryText colored report.summary, report.problemText colored, report.status,
    finds_inspect colored disk context.output code, reads.listsMissing, ?_, ?_, ?_, ?_, ?_, ?_⟩
  · rw [isDiagnostics, List.map_append, List.map_map]
    refine congrArg (_ ++ ·) (List.map_congr_left fun missing _ => ?_)
    exact Notice.ofDiagnostic_untranslated colored context.input catalog.defaultLanguage missing
  · rw [execute_eq environment colored checked, Notice.map_text_ofDiagnostic]
    change (Ending.mk (report.print colored) report.status, disk) = _
    rw [Report.print_eq colored (by simp [isSummary, Report.finish])]
  · rw [isSummary]
    exact summaryText_inspect colored catalog context.input _ (Sorting.sort_perm _)
  · rw [Report.problemText_eq, List.length_map, Notice.length_filter_isError,
      Notice.length_filter_not_isError]
    by_cases none : report.diagnostics = []
    · exact .inr ⟨List.map_eq_nil_iff.mpr none, if_pos none⟩
    · exact .inl ⟨mt List.map_eq_nil_iff.mp none, if_neg none⟩
  · rw [failed, Notice.exists_isError_iff]
  · rw [succeeded, Notice.exists_isError_iff]

/-- The output is no text, and `houses` borrows its text for `de`. -/
theorem check_prints_house :
    houseDisk.perform (Context.load {}) = (.ok houseContext, houseDisk) ∧
      Catalog.parse (houseContext.options {}).strict houseContext.source =
        .ok Catalog.houseCatalog ∧
      houseDisk.execute (fun _ => none) true (.check {} {}) =
        (⟨⟨"\x1b[1;33mwarning\x1b[0m\x1b[2;36m[missing-output]\x1b[0m: " ++
            "generated code does not exist yet\n  \x1b[34m-->\x1b[0m gen/house.rs\n\n" ++
            "\x1b[1;33mwarning\x1b[0m\x1b[2;36m[untranslated]\x1b[0m: " ++
            "no `de` translation, falls back to `en`\n  " ++
            "\x1b[34m-->\x1b[0m Localized.yml (houses(count))\n\n" ++
            "\x1b[31m✘\x1b[0m 2 problems " ++
            "(0 \x1b[31merrors\x1b[0m, 2 \x1b[33mwarnings\x1b[0m)\n", ""⟩, .success⟩,
          houseDisk) := by
  have parsed := Catalog.parse_houseSource (houseContext.options {}).strict
  obtain ⟨findings, missing, notices, success, problems, status, finds, lists, rfl, executed,
    concludes⟩ := check_prints (fun _ => none) true load_houseDisk parsed
  have isFound : findings = [.missing true "gen/house.rs"] := by
    have notText : houseDisk.readText "gen/house.rs" = .error .notText := rfl
    cases finds with
    | fresh found => cases notText.symm.trans (Disk.readText_eq_ok_iff.mpr ⟨_, found⟩)
    | stale found => cases notText.symm.trans (Disk.readText_eq_ok_iff.mpr ⟨_, found⟩)
    | missing => rfl
  have isMissing : missing = Catalog.houseCatalog.entries.tail.map (·, "de") := by
    have isUntranslated : Catalog.houseCatalog.untranslated =
        Catalog.houseCatalog.entries.tail.map (·, "de") := rfl
    refine List.perm_singleton.mp ?_
    refine (List.perm_ext_iff_of_nodup lists.nodup (List.nodup_singleton _)).mpr fun borrowed => ?_
    rw [lists.mem_iff borrowed.1 borrowed.2, ← Catalog.mem_untranslated_iff, isUntranslated]
    exact Iff.rfl
  subst isFound isMissing
  obtain ⟨clean, _⟩ | ⟨_, rfl⟩ := concludes.success
  · cases clean.1
  obtain ⟨_, rfl⟩ | ⟨none, _⟩ := concludes.problems
  · have isSuccess : status = .success := by
      have noError := concludes.succeeded.mpr (by decide)
      cases status with
      | success => rfl
      | attention => cases noError
      | failure => cases noError
    subst isSuccess
    refine ⟨load_houseDisk, parsed, executed.trans ?_⟩
    refine congrArg (fun output => (Ending.mk ⟨output, ""⟩ .success, houseDisk)) ?_
    decide +kernel
  · cases none

end Command

end Phrasebook
