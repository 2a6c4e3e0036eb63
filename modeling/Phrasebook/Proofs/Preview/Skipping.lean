/-
This file says what becomes of conditions outside the grammar. The main statement is that they are
passed over exactly where all names in front of their first unreadable part have values.
-/

import Phrasebook.Proofs.Preview.Agreement
import Phrasebook.Proofs.Preview.Evaluation

namespace Phrasebook

open Text Expression Outcome

namespace Condition

/-- A condition that the grammar does not have. -/
def Outside (condition : String) : Prop :=
  ¬∃ formula, Writes condition.toList formula

instance (condition : String) : Decidable (Outside condition) :=
  inferInstanceAs (Decidable (¬_))

/-- The names in front of the first unreadable part of a condition have values. -/
def BoundBefore (condition : String) (arguments : Arguments) : Prop :=
  ∀ formula, Begins condition.toList formula → unbound? arguments (names formula) = none

variable {condition : String} {arguments : Arguments}

theorem exists_compares_iff {text : List Char} :
    (∃ comparison, Compares text comparison) ↔ ¬(comparison? text).isNone := by
  simp only [← comparison_eq_some_iff, ← Option.isSome_iff_exists]
  rw [Option.isNone_iff_eq_none, ← Ne, Option.isSome_iff_ne_none]

/-- A condition outside the grammar has a first comparison that cannot be read. -/
theorem Outside.exists_unreadable (outside : Outside condition) :
    ∃ before piece after comparisons, pieces condition.toList = before ++ piece :: after ∧
      List.Forall₂ Compares before comparisons ∧ ∀ comparison, ¬Compares piece comparison := by
  cases isFound : (pieces condition.toList).find? fun piece => (comparison? piece).isNone with
  | some piece =>
      obtain ⟨isNone, before, after, split, readable⟩ := List.find?_eq_some_iff_append.mp isFound
      have each : ∀ text ∈ before, ∃ comparison, Compares text comparison := by
        intro text member
        have isRead := readable text member
        rw [Bool.not_eq_true', ← Bool.not_eq_true] at isRead
        exact exists_compares_iff.mpr isRead
      obtain ⟨comparisons, compares⟩ := Lists.exists_forall₂ each
      refine ⟨before, piece, after, comparisons, split, compares, ?_⟩
      intro comparison isComparison
      rw [comparison_eq_some_iff.mpr isComparison] at isNone
      cases isNone
  | none =>
      have each : ∀ alternative ∈ (splitOutside '|' .outside [] condition.toList).map
          (splitOutside '&' .outside []), ∃ clause, List.Forall₂ Compares alternative clause := by
        intro alternative isAlternative
        apply Lists.exists_forall₂
        intro text isText
        have member : text ∈ pieces condition.toList :=
          List.mem_flatten.mpr ⟨alternative, isAlternative, isText⟩
        exact exists_compares_iff.mpr (List.find?_eq_none.mp isFound text member)
      obtain ⟨formula, reads⟩ := Lists.exists_forall₂ each
      exact absurd ⟨formula, writes_iff.mpr reads⟩ outside

/-- Where nothing in front of it fails, the unreadable comparison decides. -/
theorem Outside.evaluate_of_bound (outside : Outside condition)
    (bound : BoundBefore condition arguments) :
    evaluate condition arguments = .error (.unsupportedCondition condition) := by
  obtain ⟨before, piece, after, comparisons, split, compares, unknown⟩ := outside.exists_unreadable
  rw [evaluate_eq_error_iff]
  -- what stands before the piece begins the condition, so its names have values
  refine ⟨before, piece, after, split, ?_, .unreadable unknown⟩
  rw [faultless_iff]
  intro fault
  rw [firstFault_iff_of_compares compares]
  rintro ⟨name, isUnbound, _⟩
  have inhabited : before ≠ [] := by
    rintro rfl
    cases compares
    cases isUnbound
  obtain ⟨formula, begins, rfl⟩ := begins_of_pieces split inhabited compares
  cases (bound formula begins).symm.trans isUnbound

/-- A name without a value in a part of the grammar at the beginning decides. -/
theorem evaluate_of_begins {formula : Formula} (begins : Begins condition.toList formula)
    {name : String} (isUnbound : unbound? arguments (names formula) = some name) :
    evaluate condition arguments = .error (.missingArgument name) := by
  obtain ⟨front, mark, rest, isText, isMark, writes⟩ := begins
  rw [evaluate_eq_error_iff, isText, writes.pieces_append isMark, firstFault_append,
    firstFault_iff_of_compares writes.pieces]
  exact .inl ⟨name, isUnbound, rfl⟩

theorem Outside.evaluate_eq_unsupported_iff (outside : Outside condition) :
    evaluate condition arguments = .error (.unsupportedCondition condition) ↔
      BoundBefore condition arguments := by
  refine ⟨?_, outside.evaluate_of_bound⟩
  intro unsupported formula begins
  cases isUnbound : unbound? arguments (names formula) with
  | none => rfl
  | some name => cases unsupported.symm.trans (evaluate_of_begins begins isUnbound)

theorem Outside.evaluate_eq_missing_iff (outside : Outside condition) {name : String} :
    evaluate condition arguments = .error (.missingArgument name) ↔
      ∃ formula, Begins condition.toList formula ∧
        unbound? arguments (names formula) = some name := by
  constructor
  · intro missing
    have notBound : ¬BoundBefore condition arguments := by
      intro bound
      cases missing.symm.trans (outside.evaluate_of_bound bound)
    simp only [BoundBefore, not_forall] at notBound
    obtain ⟨formula, begins, isUnbound⟩ := notBound
    obtain ⟨found, isFound⟩ := Option.ne_none_iff_exists'.mp isUnbound
    cases missing.symm.trans (evaluate_of_begins begins isFound)
    exact ⟨formula, begins, isFound⟩
  · rintro ⟨formula, begins, isUnbound⟩
    exact evaluate_of_begins begins isUnbound

end Condition

namespace Preview

open Condition

/-- No condition of a chain is true, and none fails. -/
def Passed (arguments : Arguments) (conditionals : List Conditional) : Prop :=
  ∀ conditional ∈ conditionals, evaluate conditional.condition arguments = .ok false ∨
    evaluate conditional.condition arguments =
      .error (.unsupportedCondition conditional.condition)

/-- The conditions of a chain that cannot be evaluated. -/
def unsupported (arguments : Arguments) (conditionals : List Conditional) : List String :=
  (conditionals.map Conditional.condition).filter fun condition =>
    evaluate condition arguments = .error (.unsupportedCondition condition)

section

variable {arguments : Arguments} {before after : List Conditional} {conditional : Conditional}

/-- A chain goes on behind conditions that do not decide, and those that cannot be evaluated are
listed. -/
theorem choose_append_of_passed (passed : Passed arguments before) :
    choose arguments (before ++ after) = (choose arguments after).map
      fun (chosen, skipped) => (chosen, unsupported arguments before ++ skipped) := by
  induction before with
  | nil => cases isChosen : choose arguments after <;> rw [List.nil_append, isChosen] <;> rfl
  | cons first rest inductionHypothesis =>
      obtain ⟨isFirst, further⟩ := List.forall_mem_cons.mp passed
      rw [List.cons_append, choose]
      obtain isFalse | isUnsupported := isFirst
      · have none : unsupported arguments (first :: rest) = unsupported arguments rest := by
          simp [unsupported, isFalse]
        rw [isFalse, none]
        exact inductionHypothesis further
      · have listed : unsupported arguments (first :: rest) =
            first.condition :: unsupported arguments rest := by
          simp [unsupported, isUnsupported]
        rw [isUnsupported, listed]
        dsimp only
        rw [inductionHypothesis further]
        cases choose arguments after <;> rfl

/-- A chain ends where a condition is true or fails. -/
theorem choose_append_of_not_passed (decided : ¬Passed arguments before) :
    choose arguments (before ++ after) = choose arguments before := by
  induction before with
  | nil => exact absurd (List.forall_mem_nil _) decided
  | cons first rest inductionHypothesis =>
      rw [List.cons_append, choose, choose]
      have later (isFirst : evaluate first.condition arguments = .ok false ∨
          evaluate first.condition arguments = .error (.unsupportedCondition first.condition)) :
          choose arguments (rest ++ after) = choose arguments rest :=
        inductionHypothesis fun passed => decided (List.forall_mem_cons.mpr ⟨isFirst, passed⟩)
      cases isFlag : evaluate first.condition arguments with
      | ok flag =>
          cases flag with
          | true => rfl
          | false => exact later (.inl isFlag)
      | error fault =>
          cases fault with
          | unsupportedCondition found =>
              cases unsupported_eq isFlag
              dsimp only
              rw [later (.inr isFlag)]
          | _ => rfl

/-- What the place of a condition in a chain means: the conditions before it come first, and
behind them the condition counts as false and is listed. -/
structure PassesOver (arguments : Arguments) (language : String) (wording : Wording)
    (before : List Conditional) (condition : String) (after : List Conditional)
    (result : Except PreviewFault Preview) : Prop where
  reached : Passed arguments before → result =
    (ofWording language { wording with conditionals := after } arguments).map fun shown =>
      { shown with skipped := unsupported arguments before ++ condition :: shown.skipped }
  unreached : ¬Passed arguments before → result =
    ofWording language { wording with conditionals := before } arguments

theorem ofWording_unreached {language : String} {wording : Wording}
    (split : wording.conditionals = before ++ after) (decided : ¬Passed arguments before) :
    ofWording language wording arguments =
      ofWording language { wording with conditionals := before } arguments := by
  rw [ofWording, ofWording, split, choose_append_of_not_passed decided]

theorem ofWording_passesOver {language : String} {wording : Wording}
    (split : wording.conditionals = before ++ conditional :: after)
    (skips : evaluate conditional.condition arguments =
      .error (.unsupportedCondition conditional.condition)) :
    PassesOver arguments language wording before conditional.condition after
      (ofWording language wording arguments) := by
  refine ⟨?_, ofWording_unreached split⟩
  intro passed
  rw [ofWording, ofWording, split, choose_append_of_passed passed, choose, skips]
  dsimp only
  cases choose arguments after with
  | error fault => rfl
  | ok result =>
      obtain ⟨chosen, skipped⟩ := result
      cases chosen <;> rfl

theorem ofWording_missing {language : String} {wording : Wording} {name : String}
    (split : wording.conditionals = before ++ conditional :: after)
    (missing : evaluate conditional.condition arguments = .error (.missingArgument name))
    (passed : Passed arguments before) :
    ofWording language wording arguments = .error (.missingArgument name) := by
  rw [ofWording, split, choose_append_of_passed passed, choose, missing]
  rfl

end

/-- With values for all parameters a preview shows the wording of its language. -/
theorem ofCatalog_of_bound {catalog : Catalog} (wellNamed : catalog.WellNamed) {entry : Entry}
    (member : entry ∈ catalog.entries) {arguments : Arguments}
    (bound : ∀ parameter ∈ entry.parameters, (arguments parameter).isSome) {locale : String}
    {wording : Wording} (isWording : entry.wording? (catalog.resolve locale) = some wording) :
    ofCatalog catalog entry.name locale arguments =
      ofWording (catalog.resolve locale) wording arguments := by
  have noneMissing : (entry.parameters.find? fun parameter => (arguments parameter).isNone) =
      none := by
    rw [List.find?_eq_none]
    intro parameter isParameter
    simp [Option.isSome_iff_ne_none.mp (bound parameter isParameter)]
  rw [ofCatalog, wellNamed.entry_eq member]
  dsimp only
  rw [noneMissing, isWording]

/-- A condition outside the grammar is unsupported exactly where all names in front of its first
unreadable part have values, and otherwise lacks the first of these that has none. So with values
for all parameters a preview passes over the condition in the first case, and fails with that name
in the second unless an earlier condition decides. -/
theorem outside_skipped {condition : String} (outside : Outside condition)
    (arguments : Arguments) :
    (evaluate condition arguments = .error (.unsupportedCondition condition) ↔
      BoundBefore condition arguments) ∧
    (∀ name, evaluate condition arguments = .error (.missingArgument name) ↔
      ∃ formula, Begins condition.toList formula ∧
        unbound? arguments (names formula) = some name) ∧
    ∀ strict source catalog, Catalog.parse strict source = .ok catalog →
      ∀ entry ∈ catalog.entries, (∀ parameter ∈ entry.parameters, (arguments parameter).isSome) →
        ∀ locale, ∃ wording, entry.wording? (catalog.resolve locale) = some wording ∧
          ∀ before template after,
            wording.conditionals = before ++ ⟨condition, template⟩ :: after →
            (BoundBefore condition arguments →
              PassesOver arguments (catalog.resolve locale) wording before condition after
                (ofCatalog catalog entry.name locale arguments)) ∧
            ∀ formula name, Begins condition.toList formula →
              unbound? arguments (names formula) = some name → Passed arguments before →
              ofCatalog catalog entry.name locale arguments = .error (.missingArgument name) := by
  refine ⟨outside.evaluate_eq_unsupported_iff, fun _ => outside.evaluate_eq_missing_iff, ?_⟩
  intro strict source catalog parsed entry member bound locale
  obtain ⟨pairs, drafts, _, reads⟩ := Catalog.parse_eq_ok_iff.mp parsed
  have content := reads.content
  have known := Catalog.resolve_mem content.defaultKnown locale
  obtain ⟨pair, _, holds⟩ := Lists.exists_of_mem_right content.entries member
  obtain ⟨wording, isWording⟩ := Option.isSome_iff_exists.mp ((holds.total _).mpr known)
  refine ⟨wording, isWording, ?_⟩
  intro before template after split
  rw [ofCatalog_of_bound reads.wellNamed member bound isWording]
  constructor
  · intro boundBefore
    exact ofWording_passesOver split (outside.evaluate_of_bound boundBefore)
  · intro formula name begins isUnbound passed
    exact ofWording_missing split (evaluate_of_begins begins isUnbound) passed

/-- A document with a condition that is readable in front only. -/
def itemSource : String :=
  "default: en\nitems(n):\n  'en(m == \"1\" && n.len() > 1)': Lots\n" ++
    "  'en(n == \"9\")': Nine\n  en: (n) items\n"

def itemWording : Wording :=
  ⟨[.placeholder "n", .literal " items"],
    [⟨"m == \"1\" && n.len() > 1", [.literal "Lots"]⟩, ⟨"n == \"9\"", [.literal "Nine"]⟩], false⟩

def itemCatalog : Catalog :=
  ⟨"en", ["en"], [⟨⟨"items", ["n"]⟩, "Items", "items", [("en", itemWording)]⟩]⟩

theorem parse_itemSource : Catalog.parse true itemSource = .ok itemCatalog := by
  decide +kernel

/-- Values for the parameter, and for another name or not. -/
def itemArguments (other : Option String) : Arguments :=
  fun name => if name = "n" then some "9" else if name = "m" then other else none

/-- With a value for the other name the condition is passed over, and the next one is true. -/
theorem outside_skipped_items :
    Catalog.parse true itemSource = .ok itemCatalog ∧
      Outside "m == \"1\" && n.len() > 1" ∧
      BoundBefore "m == \"1\" && n.len() > 1" (itemArguments (some "2")) ∧
      ofCatalog itemCatalog "items" "en" (itemArguments (some "2")) =
        .ok ⟨"en", "Nine", .conditional "n == \"9\"", ["m == \"1\" && n.len() > 1"]⟩ := by
  have outside : Outside "m == \"1\" && n.len() > 1" := by
    decide +kernel
  have isUnsupported : evaluate "m == \"1\" && n.len() > 1" (itemArguments (some "2")) =
      .error (.unsupportedCondition "m == \"1\" && n.len() > 1") := by
    decide +kernel
  obtain ⟨evaluated, _, previewed⟩ := outside_skipped outside (itemArguments (some "2"))
  have bound := evaluated.mp isUnsupported
  obtain ⟨wording, isWording, each⟩ :=
    previewed _ _ _ parse_itemSource _ List.mem_cons_self (by decide) "en"
  cases isWording
  have passed := ((each [] _ _ rfl).1 bound).reached (List.forall_mem_nil _)
  exact ⟨parse_itemSource, outside, bound, passed⟩

/-- A name that is no parameter makes the preview fail, though a part behind it is unreadable. -/
theorem not_outside_skipped :
    (¬∀ condition arguments, Outside condition →
      evaluate condition arguments = .error (.unsupportedCondition condition)) ∧
    ¬∀ strict source catalog, Catalog.parse strict source = .ok catalog →
      ∀ entry ∈ catalog.entries, ∀ arguments locale,
        (∀ parameter ∈ entry.parameters, (arguments parameter).isSome) →
        ∀ wording, entry.wording? (catalog.resolve locale) = some wording →
          ∀ before conditional after, wording.conditionals = before ++ conditional :: after →
            Outside conditional.condition →
            PassesOver arguments (catalog.resolve locale) wording before conditional.condition
              after (ofCatalog catalog entry.name locale arguments) := by
  have outside : Outside "m == \"1\" && n.len() > 1" := by
    decide +kernel
  constructor
  · intro every
    have missing : evaluate "m == \"1\" && n.len() > 1" (itemArguments none) =
        .error (.missingArgument "m") := by
      decide +kernel
    cases (every _ _ outside).symm.trans missing
  · intro every
    have missing : ofCatalog itemCatalog "items" "en" (itemArguments none) =
        .error (.missingArgument "m") := by
      decide +kernel
    have passed := (every _ _ _ parse_itemSource _ List.mem_cons_self (itemArguments none)
      "en" (by decide) itemWording (by decide +kernel) [] _ _ rfl outside).reached
        (List.forall_mem_nil _)
    cases passed.symm.trans missing

end Preview

end Phrasebook
