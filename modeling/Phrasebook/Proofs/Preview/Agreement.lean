/-
This file compares previews with the accessors. The main statement is that the accessors give the
language and the text of every preview.
-/

import Phrasebook.Code.Compile
import Phrasebook.Preview.Basic
import Phrasebook.Proofs.Code.Call

namespace Phrasebook

open Text Code

/-- Only the condition itself is ever called unsupported. -/
theorem Condition.unsupported_eq {condition found : String} {arguments : Arguments}
    (failed : evaluate condition arguments = .error (.unsupportedCondition found)) :
    found = condition := by
  have noOperand (operand : Operand) :
      operand.value arguments ≠ .error (.unsupportedCondition found) := by
    cases operand with
    | parameter name =>
        rw [Operand.value]
        cases arguments name <;> simp
    | literal text => simp [Operand.value]
  rw [evaluate] at failed
  obtain outer | ⟨_, _, never⟩ := Outcome.bind_eq_error_iff.mp failed
  · obtain ⟨alternative, _, inner⟩ := Outcome.exists_of_mapM_eq_error outer
    obtain middle | ⟨_, _, never⟩ := Outcome.bind_eq_error_iff.mp inner
    · obtain ⟨text, _, single⟩ := Outcome.exists_of_mapM_eq_error middle
      split at single
      · obtain left | ⟨_, _, further⟩ := Outcome.bind_eq_error_iff.mp single
        · exact absurd left (noOperand _)
        · obtain right | ⟨_, _, never⟩ := Outcome.bind_eq_error_iff.mp further
          · exact absurd right (noOperand _)
          · cases never
      · cases single
        rfl
    · cases never
  · cases never

def Entry.conditions (entry : Entry) : List String :=
  entry.wordings.flatMap fun (_, wording) => wording.conditionals.map Conditional.condition

namespace Preview

/-- Conditions of an entry hold where they evaluate to true, and never where they are skipped. -/
structure Agrees (entry : Entry) (arguments : Arguments) (skipped : List String)
    (holds : String → Bool) : Prop where
  evaluated : ∀ condition ∈ entry.conditions, ∀ flag,
    Condition.evaluate condition arguments = .ok flag → holds condition = flag
  skipped : ∀ condition ∈ skipped, holds condition = false

/-- A preview chooses the first condition that holds. -/
theorem find_of_choose {arguments : Arguments} {holds : String → Bool}
    {conditionals : List Conditional} {chosen : Option Conditional} {skipped : List String}
    (succeeded : choose arguments conditionals = .ok (chosen, skipped))
    (evaluated : ∀ conditional ∈ conditionals, ∀ flag,
      Condition.evaluate conditional.condition arguments = .ok flag →
        holds conditional.condition = flag)
    (passed : ∀ condition ∈ skipped, holds condition = false) :
    (conditionals.find? fun conditional => holds conditional.condition) = chosen := by
  induction conditionals generalizing chosen skipped with
  | nil =>
      cases succeeded
      rfl
  | cons conditional rest inductionHypothesis =>
      obtain ⟨first, further⟩ := List.forall_mem_cons.mp evaluated
      rw [choose] at succeeded
      cases isFlag : Condition.evaluate conditional.condition arguments with
      | ok flag =>
          rw [isFlag] at succeeded
          rw [List.find?_cons, first flag isFlag]
          cases flag with
          | true =>
              cases succeeded
              rfl
          | false => exact inductionHypothesis succeeded further passed
      | error fault =>
          rw [isFlag] at succeeded
          cases fault with
          | unsupportedCondition found =>
              obtain ⟨⟨later, others⟩, isRest, same⟩ := Outcome.bind_eq_ok_iff.mp succeeded
              cases same
              obtain ⟨isPassed, passedRest⟩ := List.forall_mem_cons.mp passed
              rw [Condition.unsupported_eq isFlag] at isPassed
              rw [List.find?_cons, isPassed]
              exact inductionHypothesis isRest further passedRest
          | _ => cases succeeded

/-- A preview shows what the chosen template renders. -/
theorem text_of_ofWording {language : String} {wording : Wording} {arguments : Arguments}
    {shown : Preview} (succeeded : ofWording language wording arguments = .ok shown)
    {holds : String → Bool}
    (evaluated : ∀ conditional ∈ wording.conditionals, ∀ flag,
      Condition.evaluate conditional.condition arguments = .ok flag →
        holds conditional.condition = flag)
    (passed : ∀ condition ∈ shown.skipped, holds condition = false) :
    shown.language = language ∧ shown.text = (Code.chosen holds wording).render arguments := by
  rw [ofWording] at succeeded
  obtain ⟨⟨conditional, skipped⟩, isChosen, same⟩ := Outcome.bind_eq_ok_iff.mp succeeded
  cases conditional with
  | none =>
      cases same
      rw [Code.chosen, find_of_choose isChosen evaluated passed]
      exact ⟨rfl, rfl⟩
  | some conditional =>
      cases same
      rw [Code.chosen, find_of_choose isChosen evaluated passed]
      exact ⟨rfl, rfl⟩

/-- What a preview of an entry is made of. -/
theorem ofCatalog_eq_ok {catalog : Catalog} (wellNamed : catalog.WellNamed) {entry : Entry}
    (member : entry ∈ catalog.entries) {locale : String} {arguments : Arguments}
    {shown : Preview} (previewed : ofCatalog catalog entry.name locale arguments = .ok shown) :
    (∀ parameter ∈ entry.parameters, (arguments parameter).isSome) ∧
      ∃ wording, entry.wording? (catalog.resolve locale) = some wording ∧
        ofWording (catalog.resolve locale) wording arguments = .ok shown := by
  rw [ofCatalog, wellNamed.entry_eq member] at previewed
  dsimp only at previewed
  cases isMissing : entry.parameters.find? fun parameter => (arguments parameter).isNone with
  | some parameter =>
      rw [isMissing] at previewed
      cases previewed
  | none =>
      rw [isMissing] at previewed
      constructor
      · intro parameter isParameter
        have present := List.find?_eq_none.mp isMissing parameter isParameter
        simpa [Option.isSome_iff_ne_none] using present
      · cases isWording : entry.wording? (catalog.resolve locale) with
        | none =>
            rw [isWording] at previewed
            cases previewed
        | some wording =>
            rw [isWording] at previewed
            exact ⟨wording, rfl, previewed⟩

end Preview

theorem Entry.mem_conditions {entry : Entry} {language : String} {wording : Wording}
    (isWording : entry.wording? language = some wording) {conditional : Conditional}
    (member : conditional ∈ wording.conditionals) : conditional.condition ∈ entry.conditions := by
  obtain ⟨before, after, split, _⟩ := List.lookup_eq_some_iff.mp isWording
  have isPair : (language, wording) ∈ entry.wordings := by
    rw [split]
    exact List.mem_append_right before List.mem_cons_self
  exact List.mem_flatMap.mpr ⟨_, isPair, List.mem_map.mpr ⟨_, member, rfl⟩⟩

/-- The chosen template is the base text or one of the conditional ones. -/
theorem Entry.PlaceholdersDeclared.chosen {entry : Entry} (declared : entry.PlaceholdersDeclared)
    {language : String} {wording : Wording} (isWording : entry.wording? language = some wording)
    (holds : String → Bool) :
    (Code.chosen holds wording).placeholders ⊆ entry.parameters := by
  obtain ⟨base, conditionals⟩ := declared language wording isWording
  rw [Code.chosen]
  cases isFound : wording.conditionals.find? fun conditional => holds conditional.condition with
  | none => exact base
  | some conditional => exact conditionals conditional (List.mem_of_find?_eq_some isFound)

theorem Catalog.resolve_mem {catalog : Catalog}
    (known : catalog.defaultLanguage ∈ catalog.languages) (locale : String) :
    catalog.resolve locale ∈ catalog.languages := by
  rw [Catalog.resolve, Language.resolve]
  cases isFound : catalog.languages.find? fun language =>
      language != catalog.defaultLanguage && language.toList.isPrefixOf locale.toList with
  | none => exact known
  | some language => exact List.mem_of_find?_eq_some isFound

namespace Preview

/-- The lines of the accessors that are generated for a catalog. -/
def accessorLines (catalog : Catalog) (options : Options) (attached : Option String) :
    List String :=
  (accessors catalog options.names (if options.embedSource then attached else none)).lines

/-- The accessors give the language and the text of a preview: for the locale they call the
method of the language, and for the entry this method gives the text. -/
theorem ofCatalog_agrees {strict : Bool} {source : String} {catalog : Catalog}
    (parsed : Catalog.parse strict source = .ok catalog) {entry : Entry}
    (member : entry ∈ catalog.entries) {locale : String} {arguments : Arguments}
    {shown : Preview} (previewed : ofCatalog catalog entry.name locale arguments = .ok shown)
    {holds : String → Bool} (agrees : Agrees entry arguments shown.skipped holds)
    (options : Options) (attached : Option String) :
    (generate catalog options attached).accessors =
        indented 0 (accessorLines catalog options attached) ∧
      methodFor? options.names (accessorLines catalog options attached) locale =
        some (Language.methodName shown.language) ∧
      textOf? options.names (accessorLines catalog options attached)
        (Language.methodName shown.language) entry.variantName holds arguments =
        some shown.text := by
  obtain ⟨pairs, drafts, _, reads⟩ := Catalog.parse_eq_ok_iff.mp parsed
  have wellNamed := reads.wellNamed
  have content := reads.content
  have known := Catalog.resolve_mem content.defaultKnown locale
  obtain ⟨bound, wording, isWording, isShown⟩ := ofCatalog_eq_ok wellNamed member previewed
  have evaluated : ∀ conditional ∈ wording.conditionals, ∀ flag,
      Condition.evaluate conditional.condition arguments = .ok flag →
        holds conditional.condition = flag := by
    intro conditional isConditional
    exact agrees.evaluated _ (Entry.mem_conditions isWording isConditional)
  obtain ⟨isLanguage, isText⟩ := text_of_ofWording isShown evaluated agrees.skipped
  have declared := (content.placeholders entry member).chosen isWording holds
  refine ⟨?_, ?_, ?_⟩
  · exact Layout.render_eq (nests_accessors wellNamed _).honest
  · rw [isLanguage]
    exact methodFor_accessors wellNamed _ known
  · rw [isLanguage, isText]
    exact textOf_accessors wellNamed _ known member isWording declared bound

/-- Values for the entry with a parameter. -/
def houseArguments : Arguments :=
  fun parameter => if parameter = "count" then some "1" else none

/-- A condition holds, and the accessors give its text for a locale of the default language. -/
theorem houses_agrees : ∃ entry ∈ Catalog.houseCatalog.entries,
    Catalog.parse false Catalog.houseSource = .ok Catalog.houseCatalog ∧
    ofCatalog Catalog.houseCatalog entry.name "en_US" houseArguments =
      .ok ⟨"en", "One house", .conditional "count == \"1\"", []⟩ ∧
    Agrees entry houseArguments [] (fun condition => condition == "count == \"1\"") ∧
    (generate Catalog.houseCatalog {} none).accessors =
      indented 0 (accessorLines Catalog.houseCatalog {} none) ∧
    methodFor? {} (accessorLines Catalog.houseCatalog {} none) "en_US" = some "en" ∧
    textOf? {} (accessorLines Catalog.houseCatalog {} none) "en" entry.variantName
      (fun condition => condition == "count == \"1\"") houseArguments = some "One house" := by
  let entry : Entry := ⟨⟨"houses", ["count"]⟩, "Houses", "houses",
    [("de", ⟨[.placeholder "count", .literal " houses"], [], true⟩),
      ("en", ⟨[.placeholder "count", .literal " houses"],
        [⟨"count == \"1\"", [.literal "One house"]⟩], false⟩)]⟩
  have member : entry ∈ Catalog.houseCatalog.entries := by decide
  have parsed := Catalog.parse_houseSource false
  have previewed : ofCatalog Catalog.houseCatalog entry.name "en_US" houseArguments =
      .ok ⟨"en", "One house", .conditional "count == \"1\"", []⟩ := by
    decide +kernel
  have isTrue : Condition.evaluate "count == \"1\"" houseArguments = .ok true := by
    decide +kernel
  have agrees : Agrees entry houseArguments []
      (fun condition => condition == "count == \"1\"") := by
    refine ⟨?_, by simp⟩
    intro condition isCondition flag isFlag
    obtain rfl : condition = "count == \"1\"" := by
      simpa [entry, Entry.conditions] using isCondition
    cases isTrue.symm.trans isFlag
    rfl
  have isMethod : Language.methodName "en" = "en" := by decide +kernel
  obtain ⟨generated, called, text⟩ := ofCatalog_agrees parsed member previewed agrees {} none
  dsimp only at called text
  rw [isMethod] at called text
  exact ⟨entry, member, parsed, previewed, agrees, generated, called, text⟩

end Preview

end Phrasebook
